import DeployGate.Proofs.Command.CheckLog
import DeployGate.Proofs.Json.Compact
import DeployGate.Proofs.Json.LastMembers
import DeployGate.Proofs.Plan.Places

/-!
# Groups that could not be placed

Whatever object a plan response gives for the groups that could not be placed, its keys are the
groups, each once and in ascending order, and they are logged and written in this order. The last
member of a key counts, here and in every object inside.

## Main result

`unplacedGroups_canonical`.
-/

namespace DeployGate.Command

open Files (Inputs)
open Json (Members Spelled Tree textOfUnits unitsOfText)
open Plan (Kind Part Response given)

/-- What a response holds and what is made of it when its document has these members for the groups
that could not be placed. -/
structure Gathers (document : String) (members : List (List Nat × Tree)) (response : Response) :
    Prop where
  groups : ∀ name, name ∈ response.unplacedGroups ↔ some name ∈ Json.keysOf members
  ascending : response.unplacedGroups.Pairwise Text.Precedes
  settled : ∃ unplaced, response.unplaced = some unplaced ∧
    response.unplacedGroups = unplaced.keys ∧
    ∀ entries, (Tree.object members).Settles (.object entries) ↔ entries = unplaced.entries
  logged : ∀ (inputs : Inputs) (options : CheckOptions), options.bareDiff = false →
    inputs.bytes options.location = .ok document.toUTF8 →
      (options.source inputs).records
        = response.warningLines.map warned ++ response.unplacedGroups.map unplaced
  written : Spelled response.toJson.toTree (String.ofList response.toJson.compact) ∧
    ∃ entries, given "FailedTGAllocs" 3 response.toJson.toTree = [.object entries] ∧
      entries.map Prod.fst = response.unplacedGroups.map unitsOfText ∧
      (Tree.object entries).Sorted

/-- The documents are responses that differ in the places of members, at any level, in what they
give for the groups that could not be placed. -/
inductive Reordered : String → String → Prop
  | member {key : List Nat} (spelled : textOfUnits key = some "FailedTGAllocs")
    (before after : List (List Nat × Tree)) {groups groups' : Tree} {document document' : String} :
    groups.Shuffled groups' → Spelled (.object (before ++ (key, groups) :: after)) document →
    Spelled (.object (before ++ (key, groups') :: after)) document' → Reordered document document'
  | element (before after : List Tree) {groups groups' : Tree} {document document' : String} :
    before.length = 3 → groups.Shuffled groups' →
    Spelled (.array (before ++ groups :: after)) document →
    Spelled (.array (before ++ groups' :: after)) document' → Reordered document document'

section

variable {document document' : String} {tree : Tree} {response : Response}
  {members : List (List Nat × Tree)}

/-! ### What is decoded -/

/-- The groups come from what the document gives for them. -/
theorem unplaced_of_decoded (spelled : Spelled tree document)
    (decoded : Response.ofJson document = .ok response) :
    ∃ depth, Part.unplaced.cell depth (given "FailedTGAllocs" 3 tree)
      = some response.unplaced := by
  have read := ((Kind.response.reads Json.depthLimit).decode_iff spelled).mp decoded
  have declared : Kind.response.parts[3]? = some ("FailedTGAllocs", .unplaced) := rfl
  obtain ⟨depth, -, value, found, cell⟩ := Kind.cell_of_decode read declared
  have held : Kind.response.Cell response "FailedTGAllocs" .unplaced response.unplaced :=
    .later _ (.later _ (.later _ (.first _ _)))
  cases cell.unique Kind.response.names_nodup held
  exact ⟨depth, found⟩

/-- The object that is decoded settles the one in the document. -/
theorem settles_of_decoded (spelled : Spelled tree document)
    (decoded : Response.ofJson document = .ok response)
    (gives : given "FailedTGAllocs" 3 tree = [.object members]) :
    ∃ unplaced, response.unplaced = some unplaced ∧
      (Tree.object members).Settles (.object unplaced.entries) := by
  obtain ⟨depth, found⟩ := unplaced_of_decoded spelled decoded
  rw [gives] at found
  obtain ⟨unplaced, read, same⟩ := Option.map_eq_some_iff.mp found
  obtain ⟨_, decode, given, inner, folded⟩ := Json.decodeMembersOf_eq_some_iff.mp read
  cases given
  obtain ⟨depth, rfl, rfl⟩ := Json.within_eq_some_iff.mp inner
  have settles := Json.settles_of_folded (fun _ _ => Json.settles_of_decodeDatum) folded
  exact ⟨unplaced, same.symm, settles⟩

/-- Fetching the diff logs the groups in their order. -/
theorem records_of_decoded (decoded : Response.ofJson document = .ok response) {inputs : Inputs}
    {options : CheckOptions} (full : options.bareDiff = false)
    (read : inputs.bytes options.location = .ok document.toUTF8) :
    (options.source inputs).records
      = response.warningLines.map warned ++ response.unplacedGroups.map unplaced := by
  have loaded := (load_iff full).mpr ⟨full, document, read, decoded⟩
  rw [CheckOptions.source, Gate.PlanFile.fetch, loaded]
  rfl

theorem given_toJson {unplaced : Members} (held : response.unplaced = some unplaced) :
    given "FailedTGAllocs" 3 response.toJson.toTree
      = [(Json.Value.object unplaced.entries).toTree] := by
  simp [Response.toJson, Json.Value.toTree, Json.Value.memberTrees, given, Json.valuesOf,
    Json.textOfUnits_unitsOfText, held]

theorem gathers_of_decoded (spelled : Spelled tree document)
    (decoded : Response.ofJson document = .ok response)
    (gives : given "FailedTGAllocs" 3 tree = [.object members]) :
    Gathers document members response := by
  obtain ⟨unplaced, held, settles⟩ := settles_of_decoded spelled decoded gives
  have told : response.unplacedGroups = unplaced.keys := by rw [Response.unplacedGroups, held]
  have canonical : (Json.Value.object unplaced.entries).Canonical := unplaced.toDatum.property
  constructor
  case groups =>
    rw [told]
    cases settles with
    | object _ keys _ => exact keys
  case ascending => exact unplacedGroups_ascending response
  case settled =>
    refine ⟨unplaced, held, told, fun entries => ?_⟩
    constructor
    · intro other
      injection other.unique settles
    · rintro rfl
      exact settles
  case logged => exact fun inputs options full read => records_of_decoded decoded full read
  case written =>
    refine ⟨response.toJson.spelled_compact, _, given_toJson held, ?_, canonical.sorted_toTree⟩
    rw [told, Json.Value.memberTrees_eq_map, List.map_map, Members.keys, List.map_map]
    rfl

/-- No groups are told of a response that says nothing about them. -/
theorem unplacedGroups_of_silent (spelled : Spelled tree document)
    (decoded : Response.ofJson document = .ok response)
    (silent : given "FailedTGAllocs" 3 tree = [] ∨ given "FailedTGAllocs" 3 tree = [.null]) :
    response.unplacedGroups = [] := by
  obtain ⟨depth, found⟩ := unplaced_of_decoded spelled decoded
  have none : response.unplaced = none := by
    rcases silent with absent | null
    · rw [absent] at found
      exact (Option.some.inj found).symm
    · rw [null] at found
      exact (Option.some.inj found).symm
  rw [Response.unplacedGroups, none]

/-! ### Places of members -/

theorem decode_unplaced_eq {groups groups' : Tree} (shuffled : groups.Shuffled groups')
    (depth : Nat) : Part.unplaced.decode depth groups = Part.unplaced.decode depth groups' := by
  have same := shuffled.decodeMembersOf_eq depth
  cases shuffled with
  | refl => rfl
  | array => rfl
  | object => exact congrArg (Option.map some) same

/-- A document sees of the groups only what they are read as. -/
theorem decode_eq_of_sees (depth : Nat) {fill : Tree → Tree} {groups groups' : Tree}
    {keeps : Option Members → Response → Prop}
    (sees : Plan.Sees (fun groups => Kind.response.decode (depth + 1) (fill groups))
      (Part.unplaced.decode depth) keeps)
    (shuffled : groups.Shuffled groups') :
    Kind.response.decode (depth + 1) (fill groups)
      = Kind.response.decode (depth + 1) (fill groups') := by
  obtain ⟨context, through, -⟩ := sees
  have same := congrArg (Option.bind · context) (decode_unplaced_eq shuffled depth)
  have seen (solid : groups ≠ .null) (solid' : groups' ≠ .null) :
      Kind.response.decode (depth + 1) (fill groups)
        = Kind.response.decode (depth + 1) (fill groups') :=
    (through groups solid).trans (same.trans (through groups' solid').symm)
  cases shuffled with
  | refl => rfl
  | array | object => exact seen (by simp) (by simp)

theorem Reordered.ofJson_iff (reordered : Reordered document document') (response : Response) :
    Response.ofJson document = .ok response ↔ Response.ofJson document' = .ok response := by
  have reads := Kind.response.reads Json.depthLimit
  cases reordered with
  | member key before after shuffled spelled spelled' =>
    have declared : ("FailedTGAllocs", Part.unplaced) ∈ Kind.response.parts := by
      simp [Kind.parts]
    have same := decode_eq_of_sees 126 (Kind.sees_member declared key before after) shuffled
    exact (reads.decode_iff spelled).trans (same ▸ (reads.decode_iff spelled').symm)
  | element before after length shuffled spelled spelled' =>
    have declared : Kind.response.parts[before.length]? = some ("FailedTGAllocs", .unplaced) := by
      rw [length]
      rfl
    have same := decode_eq_of_sees 126 (Kind.sees_element before after declared) shuffled
    exact (reads.decode_iff spelled).trans (same ▸ (reads.decode_iff spelled').symm)

end

/-- The groups that could not be placed are a canonical view of what the document gives for them.
-/
theorem unplacedGroups_canonical :
    (∀ document tree response, Spelled tree document → Response.ofJson document = .ok response →
      (∀ members, given "FailedTGAllocs" 3 tree = [.object members] →
        Gathers document members response) ∧
      (given "FailedTGAllocs" 3 tree = [] ∨ given "FailedTGAllocs" 3 tree = [.null] →
        response.unplacedGroups = [])) ∧
    ∀ document document', Reordered document document' → ∀ response,
      Response.ofJson document = .ok response ↔ Response.ofJson document' = .ok response := by
  constructor
  · intro document tree response spelled decoded
    constructor
    · exact fun members gives => gathers_of_decoded spelled decoded gives
    · exact unplacedGroups_of_silent spelled decoded
  · exact fun document document' reordered response => reordered.ofJson_iff response

/-- A group comes twice, and the keys in another one are in no order. In a second response two
groups change places. -/
theorem unplacedGroups_canonical_repeated :
    let api : Json.Value := .object [("b", .null), ("a", .bool true), ("b", .bool false)]
    let groups := [("web", .bool true), ("api", api), ("web", .null)]
    let document := String.ofList (Json.Value.object [("FailedTGAllocs", .object groups)]).compact
    let inside := (Members.empty.insert "a" (.bool true)).insert "b" (.bool false)
    let unplaced := (Members.empty.insert "api" inside.toDatum).insert "web" .null
    let first := "\x7b\"FailedTGAllocs\":\x7b\"web\":null,\"api\":[]\x7d\x7d"
    let second := "\x7b\"FailedTGAllocs\":\x7b\"api\":[],\"web\":null\x7d\x7d"
    let listed := (Members.empty.insert "api" (.array [])).insert "web" .null
    Gathers document (Json.Value.memberTrees groups) { unplaced := some unplaced } ∧
      unplaced.keys = ["api", "web"] ∧
      Response.ofJson first = .ok { unplaced := some listed } ∧
      Response.ofJson second = .ok { unplaced := some listed } := by
  intro api groups document inside unplaced first second listed
  obtain ⟨canonical, reordered⟩ := unplacedGroups_canonical
  let plan (groups : List (String × Json.Value)) : Json.Value :=
    .object [("FailedTGAllocs", .object groups)]
  have gives (groups : List (String × Json.Value)) :
      given "FailedTGAllocs" 3 (plan groups).toTree
        = [.object (Json.Value.memberTrees groups)] := by
    simp [plan, Json.Value.toTree, Json.Value.memberTrees, given, Json.valuesOf,
      Json.textOfUnits_unitsOfText]
  have decoded : Response.ofJson document = .ok { unplaced := some unplaced } := by
    decide +kernel
  have decoded' : Response.ofJson first = .ok { unplaced := some listed } := by decide +kernel
  let web : List Nat × Tree := (unitsOfText "web", .null)
  let none : List Nat × Tree := (unitsOfText "api", .array [])
  have shuffled : (Tree.object [web, none]).Shuffled (.object [none, web]) := by
    have perm : [web, none].Perm [none, web] := .swap none web []
    apply Tree.Shuffled.object (by decide) perm rfl
    intro index member member' found found'
    cases found.symm.trans found'
    exact .refl _
  have spelled (groups : List (String × Json.Value)) : Spelled (plan groups).toTree _ :=
    (plan groups).spelled_compact
  have moved : Reordered first second := by
    refine .member (Json.textOfUnits_unitsOfText "FailedTGAllocs") [] [] shuffled ?_ ?_
    · exact spelled [("web", .null), ("api", .array [])]
    · exact spelled [("api", .array []), ("web", .null)]
  refine ⟨?_, by decide, decoded', (reordered _ _ moved _).mp decoded'⟩
  exact (canonical _ _ _ (spelled groups) decoded).1 _ (gives groups)

end DeployGate.Command
