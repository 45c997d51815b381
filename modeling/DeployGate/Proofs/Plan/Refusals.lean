import DeployGate.Proofs.Json.Depth
import DeployGate.Proofs.Plan.Places
import Mathlib.Data.List.Nodup

/-!
# Refusals

A plan with a fault anywhere in it is refused as a whole: a record without its type or name, a
repeated key, a value of the wrong kind, a list of too few or too many values. What may be left out
or `null` is empty then, and this alone is no fault: `null` and absence are read alike at every
depth (`Alike.decode_eq`), also where an empty list would be one too many.
-/

namespace DeployGate.Plan

open Json (Refines Row Spelled Spells Tree textOfUnits unitsOfText valuesOf)

/-! ### More depth -/

section

variable {depth depth' : Nat}

theorem orElse_refines {α : Type} (absent : α) {decode decode' : Tree → Option α}
    (refines : Refines decode decode') : Refines (orElse absent decode) (orElse absent decode') :=
  refines.nullable.map fun found : Option α => found.getD absent

/-- A part is read with more depth if the records in it are. -/
theorem Part.refines (le : depth ≤ depth')
    (node : ∀ kind : Kind, Refines (kind.decode depth) (kind.decode depth'))
    (item : ∀ (kind : Kind) inner inner', inner < depth → inner ≤ inner' →
      Refines (kind.decode inner) (kind.decode inner')) (part : Part) :
    Refines (part.decode depth) (part.decode depth') := by
  cases part with
  | node kind => exact node kind
  | texts => exact orElse_refines [] (.list (Refines.within le fun _ _ _ _ => .refl _))
  | nodes kind =>
    rw [decode_nodes, decode_nodes]
    exact orElse_refines [] (.list (Refines.within le (item kind)))
  | diff => exact (node .job).nullable
  | unplaced =>
    have data := Refines.within le fun _ _ _ le => Json.decodeDatum_refines le
    exact (Refines.membersOf data).nullable
  | _ => exact .refl _

end

theorem Part.cell_mono {part : Part} {depth depth' : Nat}
    (refines : Refines (part.decode depth) (part.decode depth')) (values : List Tree)
    (value : part.Result) (found : part.cell depth values = some value) :
    part.cell depth' values = some value := by
  match values with
  | [] => exact found
  | [tree] => exact refines tree value found
  | _ :: _ :: _ => cases found

/-- Where more lists and objects may open, every record is still read, and as the same value. -/
theorem Kind.refines {depth depth' : Nat} (le : depth ≤ depth') (kind : Kind) :
    Refines (kind.decode depth) (kind.decode depth') := by
  induction depth using Nat.strongRecOn generalizing depth' kind with
  | ind depth ih =>
    intro tree result decoded
    cases depth with
    | zero => cases decoded
    | succ depth =>
      obtain ⟨depth', rfl⟩ : ∃ more, depth' = more + 1 := ⟨depth' - 1, by omega⟩
      have refines (part : Part) : Refines (part.decode depth) (part.decode depth') := by
        refine part.refines (by omega) (fun kind => ih depth (by omega) (by omega) kind) ?_
        intro kind inner inner' lt le
        exact ih inner (by omega) le kind
      cases decode_eq_some_iff.mp decoded with
      | object =>
        exact decode_object_mono id (fun _ part _ => Part.cell_mono (refines part) _) decoded
      | array =>
        exact decode_array_mono id (fun _ _ part _ => Part.cell_mono (refines part) _) decoded

/-! ### Faults -/

/-- A part that must be there. -/
def Part.IsRequired (part : Part) : Prop := part = type ∨ part = name

instance (part : Part) : Decidable part.IsRequired := inferInstanceAs (Decidable (_ ∨ _))

/-- A document with the value alone is not read. -/
def Undecodable {α : Type} (read : Json.Reader α) (tree : Tree) : Prop :=
  ∃ document, Spelled tree document ∧ ∀ value, Json.decode read document ≠ .ok value

/-- The value is none of the part. -/
def Part.Refuses : Part → Tree → Prop
  | type, tree | name, tree => ∀ units, tree ≠ .string units
  | text, tree => tree ≠ .null ∧ ∀ units, tree ≠ .string units
  | texts, tree =>
    tree ≠ .null ∧ ∀ elements, tree = .array elements →
      ∃ element ∈ elements, Undecodable Json.readText element
  | nodes kind, tree =>
    tree ≠ .null ∧ ∀ elements, tree = .array elements →
      ∃ element ∈ elements, Undecodable (kind.read Json.depthLimit) element
  | _, _ => False

/-- A record that no plan may hold. -/
inductive Faulty (kind : Kind) : Tree → Prop
  | missing {name : String} {part : Part} {members : List (List Nat × Tree)} :
    (name, part) ∈ kind.parts → part.IsRequired → valuesOf name members = [] →
      Faulty kind (.object members)
  | repeated {name : String} {part : Part} {members : List (List Nat × Tree)} :
    (name, part) ∈ kind.parts → 2 ≤ (valuesOf name members).length →
      Faulty kind (.object members)
  | refused {index : Nat} {name : String} {part : Part} {node value : Tree} :
    kind.parts[index]? = some (name, part) → value ∈ given name index node →
      part.Refuses value → Faulty kind node
  | short {elements : List Tree} :
    elements.length < kind.parts.countP (fun entry => entry.2.IsRequired) →
      Faulty kind (.array elements)
  | long {elements : List Tree} :
    kind.parts.length < elements.length → Faulty kind (.array elements)

theorem Undecodable.decode_eq_none {α : Type} {read : Json.Reader α} {decode : Tree → Option α}
    {tree : Tree} (undecodable : Undecodable read tree) (reads : Json.Reads read decode) :
    decode tree = none := by
  obtain ⟨document, spelled, fails⟩ := undecodable
  rw [Option.eq_none_iff_forall_not_mem]
  intro value found
  exact fails value ((reads.decode_iff spelled).mpr found)

/-- No list is read with an element in it that is not read at any depth below. -/
theorem decodeList_within_eq_none {α : Type} {decode : Nat → Tree → Option α} {depth : Nat}
    {tree : Tree}
    (faulty : ∀ elements, tree = .array elements →
      ∃ element ∈ elements, ∀ inner < depth, decode inner element = none) :
    Json.decodeList (Json.within decode depth) tree = none := by
  rw [Option.eq_none_iff_forall_not_mem]
  intro values found
  obtain ⟨elements, _, rfl, given, found⟩ := Json.decodeList_eq_some_iff.mp found
  obtain ⟨inner, rfl, rfl⟩ := Json.within_eq_some_iff.mp given
  obtain ⟨element, inside, refused⟩ := faulty elements rfl
  obtain ⟨value, read⟩ := Json.value_of_mem found element inside
  cases (refused inner (Nat.lt_succ_self inner)).symm.trans read

theorem Part.Refuses.decode_eq_none {part : Part} {tree : Tree} (refuses : part.Refuses tree)
    {depth : Nat} (le : depth ≤ Json.depthLimit) : part.decode depth tree = none := by
  have noText (other : ∀ units, tree ≠ .string units) : Json.decodeText tree = none := by
    cases tree with
    | string units => exact absurd rfl (other units)
    | _ => rfl
  cases part with
  | type =>
    change (Json.decodeText tree).map DiffType.ofString = none
    rw [noText refuses]
    rfl
  | name => exact noText refuses
  | text =>
    rw [decode_text, orElse_of_ne_null _ _ refuses.1, noText refuses.2]
  | texts =>
    rw [decode_texts, orElse_of_ne_null _ _ refuses.1]
    refine decodeList_within_eq_none fun elements same => ?_
    obtain ⟨element, inside, undecodable⟩ := refuses.2 elements same
    exact ⟨element, inside, fun _ _ => undecodable.decode_eq_none Json.Reads.text⟩
  | nodes kind =>
    rw [decode_nodes, orElse_of_ne_null _ _ refuses.1]
    refine decodeList_within_eq_none fun elements same => ?_
    obtain ⟨element, inside, undecodable⟩ := refuses.2 elements same
    refine ⟨element, inside, fun inner lt => ?_⟩
    -- with less depth no more is read
    have refused := undecodable.decode_eq_none (kind.reads Json.depthLimit)
    rw [Option.eq_none_iff_forall_not_mem] at refused ⊢
    intro value found
    exact refused value (kind.refines (by omega) element value found)
  | _ => exact absurd refuses id

theorem exists_getElem?_of_lt_countP {α : Type} {p : α → Bool} {elements : List α} {n : Nat}
    (lt : n < elements.countP p) :
    ∃ index ≥ n, ∃ element, elements[index]? = some element ∧ p element := by
  have both := @List.countP_append _ p (elements.take n) (elements.drop n)
  rw [List.take_append_drop] at both
  have few : (elements.take n).countP p ≤ n :=
    Nat.le_trans List.countP_le_length (List.length_take_le n elements)
  have more : 0 < (elements.drop n).countP p := by omega
  obtain ⟨element, inside, holds⟩ := List.countP_pos_iff.mp more
  obtain ⟨index, found⟩ := List.getElem?_of_mem inside
  rw [List.getElem?_drop] at found
  exact ⟨n + index, Nat.le_add_right n index, element, found, holds⟩

theorem Part.IsRequired.absent_eq_none {part : Part} (required : part.IsRequired) :
    part.absent = none := by
  rcases required with rfl | rfl <;> rfl

theorem Faulty.ne_null {kind : Kind} {node : Tree} (faulty : Faulty kind node) : node ≠ .null := by
  cases faulty with
  | refused _ inside =>
    rintro rfl
    cases inside
  | _ => simp

theorem Faulty.decode_eq_none {kind : Kind} {node : Tree} (faulty : Faulty kind node) {depth : Nat}
    (le : depth ≤ Json.depthLimit) : kind.decode depth node = none := by
  rw [Option.eq_none_iff_forall_not_mem]
  intro result decoded
  -- each key of a record that is read has no value and needs none, or one that is not refused
  have cell {index : Nat} {name : String} {part : Part}
      (declared : kind.parts[index]? = some (name, part)) :
      (given name index node = [] ∧ ¬ part.IsRequired) ∨
        ∃ tree, given name index node = [tree] ∧ ¬ part.Refuses tree := by
    obtain ⟨inner, lt, value, found, -⟩ := Kind.cell_of_decode decoded declared
    rcases Part.cell_eq_some_iff.mp found with ⟨none, absent⟩ | ⟨tree, one, found⟩
    · refine .inl ⟨none, fun required => ?_⟩
      rw [required.absent_eq_none] at absent
      cases absent
    · refine .inr ⟨tree, one, fun refuses => ?_⟩
      rw [refuses.decode_eq_none (by omega)] at found
      cases found
  cases faulty with
  | missing declared required none =>
    obtain ⟨index, declared⟩ := List.getElem?_of_mem declared
    rcases cell declared with ⟨-, optional⟩ | ⟨tree, one, -⟩
    · exact optional required
    · cases none.symm.trans one
  | repeated declared many =>
    obtain ⟨index, declared⟩ := List.getElem?_of_mem declared
    rcases cell declared with ⟨none, -⟩ | ⟨tree, one, -⟩
    · rw [given] at none
      simp [none] at many
    · rw [given] at one
      simp [one] at many
  | refused declared inside refuses =>
    rcases cell declared with ⟨none, -⟩ | ⟨tree, one, accepts⟩
    · rw [none] at inside
      cases inside
    · rw [one, List.mem_singleton] at inside
      exact accepts (inside ▸ refuses)
  | @short elements few =>
    obtain ⟨index, behind, ⟨name, part⟩, declared, required⟩ := exists_getElem?_of_lt_countP few
    have none : given name index (.array elements) = [] := by
      rw [given, List.getElem?_eq_none behind]
      rfl
    rcases cell declared with ⟨-, optional⟩ | ⟨tree, one, -⟩
    · exact optional (of_decide_eq_true required)
    · cases none.symm.trans one
  | long many =>
    cases Kind.decode_eq_some_iff.mp decoded with
    | array found => exact absurd (Parts.length_of_ofElements found) (Nat.not_le.mpr many)

/-! ### What may be left out -/

/-- The empty value of a part that may be left out. -/
def Part.blank : Part → Option Tree
  | text => some (.string [])
  | texts | nodes _ => some (.array [])
  | _ => none

/-- The record with a value that is empty, and the same record with `null` in its place or without
it. -/
inductive Emptied (kind : Kind) : Tree → Tree → Prop
  | nullMember {key : List Nat} {name : String} {part : Part} {empty : Tree}
    (declared : (name, part) ∈ kind.parts) (spelled : textOfUnits key = some name)
    (blank : part.blank = some empty) (before after : List (List Nat × Tree)) :
    Emptied kind (.object (before ++ (key, empty) :: after))
      (.object (before ++ (key, .null) :: after))
  | noMember {key : List Nat} {name : String} {part : Part} {empty : Tree}
    (declared : (name, part) ∈ kind.parts) (spelled : textOfUnits key = some name)
    (blank : part.blank = some empty) (before after : List (List Nat × Tree)) :
    Emptied kind (.object (before ++ (key, empty) :: after)) (.object (before ++ after))
  | nullElement {name : String} {part : Part} {empty : Tree} (before after : List Tree)
    (declared : kind.parts[before.length]? = some (name, part))
    (blank : part.blank = some empty) :
    Emptied kind (.array (before ++ empty :: after)) (.array (before ++ .null :: after))
  | noElement {name : String} {part : Part} {empty : Tree} (elements : List Tree)
    (declared : kind.parts[elements.length]? = some (name, part))
    (blank : part.blank = some empty) :
    Emptied kind (.array (elements ++ [empty])) (.array elements)

theorem Part.decode_null {part : Part} {depth : Nat} {value : part.Result}
    (found : part.decode depth .null = some value) : part.absent = some value := by
  cases part with
  | node kind => cases Kind.decode_eq_some_iff.mp found
  | nodes kind =>
    rw [decode_nodes] at found
    exact found
  | text | texts | diff | unplaced => exact found
  | _ => cases found

theorem Part.decode_blank {part : Part} {empty : Tree} (blank : part.blank = some empty)
    {depth : Nat} {value : part.Result} (found : part.decode depth empty = some value) :
    part.absent = some value ∧ part.decode depth .null = some value := by
  cases part with
  | text =>
    cases blank
    cases found
    exact ⟨rfl, rfl⟩
  | texts =>
    cases blank
    cases depth with
    | zero => cases found
    | succ depth =>
      cases found
      exact ⟨rfl, rfl⟩
  | nodes kind =>
    cases blank
    cases depth with
    | zero => cases found
    | succ depth =>
      cases found
      exact ⟨rfl, rfl⟩
  | _ => cases blank

theorem Kind.part_unique {kind : Kind} {name : String} {part part' : Part}
    (declared : (name, part) ∈ kind.parts) (declared' : (name, part') ∈ kind.parts) :
    part' = part :=
  congrArg Prod.snd (List.inj_on_of_nodup_map kind.names_nodup declared' declared rfl)

/-- Only an empty value alone is kept, and then it makes no difference. -/
theorem Part.cell_blank {part : Part} {empty : Tree} (blank : part.blank = some empty)
    {depth : Nat} {before after : List Tree} {value : part.Result}
    (found : part.cell depth (before ++ empty :: after) = some value) :
    part.cell depth (before ++ .null :: after) = some value ∧
      part.cell depth (before ++ after) = some value := by
  rcases Part.cell_eq_some_iff.mp found with ⟨none, -⟩ | ⟨tree, one, found⟩
  · simp at none
  · obtain ⟨rfl, rfl, rfl⟩ : before = [] ∧ empty = tree ∧ after = [] := by
      cases before <;> simp_all
    obtain ⟨absent, null⟩ := Part.decode_blank blank found
    exact ⟨null, absent⟩

/-- An object whose members differ in one key is read as before if the key comes to the same. -/
theorem Kind.decode_object_same {kind : Kind} {depth : Nat} {result : kind.Result} {name : String}
    {part : Part} (declared : (name, part) ∈ kind.parts)
    {members members' : List (List Nat × Tree)}
    (texts : Json.areTexts members = true → Json.areTexts members' = true)
    (others : ∀ other, other ≠ name → valuesOf other members = valuesOf other members')
    (here : ∀ value, part.cell depth (valuesOf name members) = some value →
      part.cell depth (valuesOf name members') = some value)
    (decoded : kind.decode (depth + 1) (.object members) = some result) :
    kind.decode (depth + 1) (.object members') = some result := by
  refine decode_object_mono texts ?_ decoded
  intro other part' declared' value found
  by_cases same : other = name
  · subst same
    obtain rfl := Kind.part_unique declared declared'
    exact here value found
  · rwa [← others other same]

theorem Kind.decode_array_same {kind : Kind} {depth index : Nat} {result : kind.Result}
    {name : String} {part : Part} (declared : kind.parts[index]? = some (name, part))
    {elements elements' : List Tree}
    (fits : elements.length ≤ kind.parts.length → elements'.length ≤ kind.parts.length)
    (others : ∀ other, other ≠ index → elements[other]? = elements'[other]?)
    (here : ∀ value, part.cell depth elements[index]?.toList = some value →
      part.cell depth elements'[index]?.toList = some value)
    (decoded : kind.decode (depth + 1) (.array elements) = some result) :
    kind.decode (depth + 1) (.array elements') = some result := by
  refine decode_array_mono fits ?_ decoded
  intro other name' part' declared' value found
  by_cases same : other = index
  · subst same
    cases declared.symm.trans declared'
    exact here value found
  · rwa [← others other same]

/-- Lists with one element exchanged are the same at every other place. -/
theorem getElem?_of_exchanged {before after : List Tree} {index : Nat}
    (differ : index ≠ before.length) (tree tree' : Tree) :
    (before ++ tree :: after)[index]? = (before ++ tree' :: after)[index]? := by
  rcases Nat.lt_or_gt_of_ne differ with inside | behind
  · rw [List.getElem?_append_left inside, List.getElem?_append_left inside]
  · have le : before.length ≤ index := Nat.le_of_lt behind
    rw [List.getElem?_append_right le, List.getElem?_append_right le, List.getElem?_cons,
      List.getElem?_cons, if_neg (by omega), if_neg (by omega)]

/-- A last element is missed nowhere but at its own place. -/
theorem getElem?_of_appended {elements : List Tree} {index : Nat}
    (differ : index ≠ elements.length) (tree : Tree) :
    (elements ++ [tree])[index]? = elements[index]? := by
  rcases Nat.lt_or_gt_of_ne differ with inside | behind
  · exact List.getElem?_append_left inside
  · have nothing : elements[index]? = none := List.getElem?_eq_none (Nat.le_of_lt behind)
    rw [nothing]
    exact List.getElem?_eq_none (by simp; omega)

theorem Emptied.decode {kind : Kind} {node node' : Tree} (emptied : Emptied kind node node')
    {depth : Nat} {result : kind.Result} (decoded : kind.decode depth node = some result) :
    kind.decode depth node' = some result := by
  cases depth with
  | zero => cases decoded
  | succ depth =>
    cases emptied with
    | @nullMember key name part empty declared spelled blank before after =>
      refine Kind.decode_object_same declared (by simp [Json.areTexts]) ?_ ?_ decoded
      · intro other differ
        rw [Parts.valuesOf_other spelled differ, Parts.valuesOf_other spelled differ]
      · intro value found
        rw [Parts.valuesOf_same spelled] at found ⊢
        exact (Part.cell_blank blank found).1
    | @noMember key name part empty declared spelled blank before after =>
      refine Kind.decode_object_same declared (by simp [Json.areTexts]; tauto) ?_ ?_ decoded
      · exact fun other differ => Parts.valuesOf_other spelled differ _ _ _
      · intro value found
        rw [Parts.valuesOf_same spelled] at found
        rw [Json.valuesOf_append]
        exact (Part.cell_blank blank found).2
    | @nullElement name part empty before after declared blank =>
      have here (tree : Tree) :
          (before ++ tree :: after)[before.length]?.toList = [] ++ tree :: [] := by simp
      refine Kind.decode_array_same declared (by simp) ?_ ?_ decoded
      · exact fun other differ => getElem?_of_exchanged differ _ _
      · intro value found
        rw [here] at found ⊢
        exact (Part.cell_blank blank found).1
    | @noElement name part empty elements declared blank =>
      have here : (elements ++ [empty])[elements.length]?.toList = [] ++ empty :: [] := by simp
      have behind : elements[elements.length]?.toList = [] ++ [] := by simp
      refine Kind.decode_array_same declared (by simp; omega) ?_ ?_ decoded
      · exact fun other differ => getElem?_of_appended differ empty
      · intro value found
        rw [here] at found
        rw [behind]
        exact (Part.cell_blank blank found).2

theorem Emptied.ne_null {kind : Kind} {node node' : Tree} (emptied : Emptied kind node node') :
    node ≠ .null ∧ node' ≠ .null := by
  cases emptied <;> simp

/-- The values that tell no more of a part than leaving it out does, however deep it is. An empty
list is not among them, as it may be one list too deep. -/
def Part.IsVoid : Part → Tree → Prop
  | text, tree => tree = .null ∨ tree = .string []
  | texts, tree | nodes _, tree | diff, tree | unplaced, tree => tree = .null
  | _, _ => False

/-- Two records of which one leaves out what is void in the other, or has another void value in its
place. -/
inductive Alike (kind : Kind) : Tree → Tree → Prop
  | member {key : List Nat} {name : String} {part : Part} {value : Tree}
    (declared : (name, part) ∈ kind.parts) (spelled : textOfUnits key = some name)
    (void : part.IsVoid value) (before after : List (List Nat × Tree))
    (alone : valuesOf name (before ++ after) = []) :
    Alike kind (.object (before ++ (key, value) :: after)) (.object (before ++ after))
  | last {name : String} {part : Part} {value : Tree} (elements : List Tree)
    (declared : kind.parts[elements.length]? = some (name, part)) (void : part.IsVoid value) :
    Alike kind (.array (elements ++ [value])) (.array elements)
  | element {name : String} {part : Part} {value value' : Tree} (before after : List Tree)
    (declared : kind.parts[before.length]? = some (name, part)) (void : part.IsVoid value)
    (void' : part.IsVoid value') :
    Alike kind (.array (before ++ value :: after)) (.array (before ++ value' :: after))

theorem Part.IsVoid.decode_eq {part : Part} {value : Tree} (void : part.IsVoid value)
    (depth : Nat) : part.decode depth value = part.absent := by
  cases part with
  | text => rcases void with rfl | rfl <;> rfl
  | nodes kind =>
    cases void
    rw [decode_nodes]
    rfl
  | texts | diff | unplaced =>
    cases void
    rfl
  | _ => exact absurd void id

/-- Objects are read alike if they differ in one key that comes to the same in both. -/
theorem Kind.decode_object_eq {kind : Kind} {depth : Nat} {name : String} {part : Part}
    (declared : (name, part) ∈ kind.parts) {members members' : List (List Nat × Tree)}
    (texts : Json.areTexts members = true ↔ Json.areTexts members' = true)
    (others : ∀ other, other ≠ name → valuesOf other members = valuesOf other members')
    (here : part.cell depth (valuesOf name members) = part.cell depth (valuesOf name members')) :
    kind.decode (depth + 1) (.object members) = kind.decode (depth + 1) (.object members') := by
  ext result
  constructor
  · exact decode_object_same declared texts.mp others fun value found => here ▸ found
  · refine decode_object_same declared texts.mpr ?_ fun value found => here ▸ found
    exact fun other differ => (others other differ).symm

theorem Kind.decode_array_eq {kind : Kind} {depth index : Nat} {name : String} {part : Part}
    (declared : kind.parts[index]? = some (name, part)) {elements elements' : List Tree}
    (fits : elements.length ≤ kind.parts.length ↔ elements'.length ≤ kind.parts.length)
    (others : ∀ other, other ≠ index → elements[other]? = elements'[other]?)
    (here : part.cell depth elements[index]?.toList = part.cell depth elements'[index]?.toList) :
    kind.decode (depth + 1) (.array elements) = kind.decode (depth + 1) (.array elements') := by
  ext result
  constructor
  · exact decode_array_same declared fits.mp others fun value found => here ▸ found
  · refine decode_array_same declared fits.mpr ?_ fun value found => here ▸ found
    exact fun other differ => (others other differ).symm

/-- Whatever depth is left, such records are both read as the same, or none of them is read. -/
theorem Alike.decode_eq {kind : Kind} {node node' : Tree} (alike : Alike kind node node')
    (depth : Nat) : kind.decode depth node = kind.decode depth node' := by
  cases depth with
  | zero => rfl
  | succ depth =>
    cases alike with
    | @member key name part value declared spelled void before after alone =>
      refine Kind.decode_object_eq declared (by simp [Json.areTexts, spelled]) ?_ ?_
      · exact fun other differ => Parts.valuesOf_other spelled differ _ _ _
      · -- the key has this one value, and none without it
        rw [Json.valuesOf_append, List.append_eq_nil_iff] at alone
        rw [Parts.valuesOf_same spelled, Json.valuesOf_append, alone.1, alone.2]
        exact void.decode_eq depth
    | @last name part value elements declared void =>
      have inside := (List.getElem?_eq_some_iff.mp declared).1
      refine Kind.decode_array_eq declared (by simp; omega) ?_ ?_
      · exact fun other differ => getElem?_of_appended differ value
      · have here : (elements ++ [value])[elements.length]?.toList = [value] := by simp
        have behind : elements[elements.length]?.toList = [] := by simp
        rw [here, behind]
        exact void.decode_eq depth
    | @element name part value value' before after declared void void' =>
      have here (tree : Tree) : (before ++ tree :: after)[before.length]?.toList = [tree] := by simp
      refine Kind.decode_array_eq declared (by simp) ?_ ?_
      · exact fun other differ => getElem?_of_exchanged differ value value'
      · rw [here, here]
        exact (void.decode_eq depth).trans (void'.decode_eq depth).symm

/-- In the last record that may be opened an empty list is one too many, and `null` is not. -/
example :
    let job (fields : Tree) : Tree :=
      .object [(unitsOfText "Type", .string []), (unitsOfText "Fields", fields)]
    (Kind.job.decode 1 (job (.array []))).isNone ∧ (Kind.job.decode 1 (job .null)).isSome := by
  decide

theorem Alike.ne_null {kind : Kind} {node node' : Tree} (alike : Alike kind node node') :
    node ≠ .null ∧ node' ≠ .null := by
  cases alike <;> simp

/-! ### Documents -/

/-- No plan is made of a document with a fault, wherever it is. A value that is left out or `null`
is empty if it may be, and a document with it is decoded as if the empty value were spelled out.
Where no list could be opened to spell it, leaving it out is still no fault: with `null` and without
the value two documents are decoded as the same plan, or neither is. -/
structure Strict (root : Kind) (ofJson : String → Except Json.Defect root.Result) : Prop where
  refused : ∀ {target : Kind} (path : Path (.node root) target) {node : Tree} {document : String},
    Faulty target node → Spelled (path.fill node) document →
      ∃ defect, ofJson document = .error defect
  empty : ∀ {target : Kind} (path : Path (.node root) target) {node : Tree} {document : String}
    {index : Nat} {name : String} {part : Part} {absent : part.Result} {result : root.Result},
    target.parts[index]? = some (name, part) → part.absent = some absent →
      given name index node = [] ∨ given name index node = [.null] → node ≠ .null →
      Spelled (path.fill node) document → ofJson document = .ok result →
        ∃ record, path.Leads result record ∧ target.Cell record name part absent
  emptied : ∀ {target : Kind} (path : Path (.node root) target) {node node' : Tree}
    {document document' : String} {result : root.Result},
    Emptied target node node' → Spelled (path.fill node) document →
      Spelled (path.fill node') document' → ofJson document = .ok result →
        ofJson document' = .ok result
  alike : ∀ {target : Kind} (path : Path (.node root) target) {node node' : Tree}
    {document document' : String},
    Alike target node node' → Spelled (path.fill node) document →
      Spelled (path.fill node') document' →
        ∀ result, ofJson document = .ok result ↔ ofJson document' = .ok result

theorem strict_of_reads (root : Kind) : Strict root (Json.decode (root.read Json.depthLimit)) := by
  have reads := root.reads Json.depthLimit
  constructor
  case refused =>
    intro target path node document faulty spelled
    obtain ⟨left, le, context, through, -⟩ := path.decode_fill Json.depthLimit
    have none : root.decode Json.depthLimit (path.fill node) = none := by
      rw [through node faulty.ne_null, faulty.decode_eq_none le]
      rfl
    cases decoded : Json.decode (root.read Json.depthLimit) document with
    | error defect => exact ⟨defect, rfl⟩
    | ok value => cases none.symm.trans ((reads.decode_iff spelled).mp decoded)
  case empty =>
    intro target path node document index name part absent result declared absent' blank solid
      spelled decoded
    obtain ⟨left, -, context, through, kept⟩ := path.decode_fill Json.depthLimit
    rw [reads.decode_iff spelled, through node solid] at decoded
    obtain ⟨record, inside, found⟩ := Option.bind_eq_some_iff.mp decoded
    refine ⟨record, kept record result found, ?_⟩
    obtain ⟨inner, -, value, cell, has⟩ := Kind.cell_of_decode inside declared
    have same : part.absent = some value := by
      rcases Part.cell_eq_some_iff.mp cell with ⟨-, absent⟩ | ⟨tree, one, found⟩
      · exact absent
      · rcases blank with none | null
        · cases none.symm.trans one
        · cases null.symm.trans one
          exact Part.decode_null found
    cases absent'.symm.trans same
    exact has
  case emptied =>
    intro target path node node' document document' result emptied spelled spelled' decoded
    obtain ⟨left, -, context, through, -⟩ := path.decode_fill Json.depthLimit
    obtain ⟨solid, solid'⟩ := emptied.ne_null
    rw [reads.decode_iff spelled, through node solid] at decoded
    obtain ⟨record, inside, found⟩ := Option.bind_eq_some_iff.mp decoded
    rw [reads.decode_iff spelled', through node' solid', emptied.decode inside]
    exact found

  case alike =>
    intro target path node node' document document' alike spelled spelled' result
    obtain ⟨left, -, context, through, -⟩ := path.decode_fill Json.depthLimit
    obtain ⟨solid, solid'⟩ := alike.ne_null
    rw [reads.decode_iff spelled, reads.decode_iff spelled', through node solid,
      through node' solid', alike.decode_eq left]

/-- Both for the diff of a job and for a plan response a fault is found wherever it is. -/
theorem ofJson_strict : Strict .job JobDiff.ofJson ∧ Strict .response Response.ofJson :=
  ⟨strict_of_reads .job, strict_of_reads .response⟩

/-- A task group of a response has no name, and the fields of a job are `null` or left out. -/
theorem ofJson_strict_nameless :
    let type : List Nat × Tree := (unitsOfText "Type", .string (unitsOfText "Edited"))
    let fields (tree : Tree) : List Nat × Tree := (unitsOfText "Fields", tree)
    Faulty .group (.object [type]) ∧
      (∃ defect, Response.ofJson
        "\x7b\"Diff\":\x7b\"Type\":\"Edited\",\"TaskGroups\":[\x7b\"Type\":\"Edited\"\x7d]\x7d\x7d"
          = .error defect) ∧
      Emptied .job (.object [type, fields (.array [])]) (.object [type, fields .null]) ∧
      JobDiff.ofJson "\x7b\"Type\":\"Edited\",\"Fields\":null\x7d" = .ok { type := .edited } ∧
      Alike .job (.object [type, fields .null]) (.object [type]) ∧
      JobDiff.ofJson "\x7b\"Type\":\"Edited\"\x7d" = .ok { type := .edited } := by
  intro type fields
  have faulty : Faulty .group (.object [type]) :=
    .missing (by decide : ("Name", Part.name) ∈ Kind.group.parts) (.inr rfl) (by decide)
  have emptied : Emptied .job (.object [type, fields (.array [])]) (.object [type, fields .null]) :=
    .nullMember (by decide : ("Fields", Part.nodes .field) ∈ Kind.job.parts)
      (Json.textOfUnits_unitsOfText "Fields") rfl [type] []
  have alike : Alike .job (.object [type, fields .null]) (.object [type]) :=
    .member (by decide : ("Fields", Part.nodes .field) ∈ Kind.job.parts)
      (Json.textOfUnits_unitsOfText "Fields") rfl [type] [] (by decide)
  have spellsType := Spells.named "Type" (by decide) (Spells.ofText "Edited" (by decide))
  let path : Path (.node .response) .group :=
    .member (by decide : ("Diff", Part.diff) ∈ Kind.response.parts)
      (Json.textOfUnits_unitsOfText "Diff") [] [] <| .diff <|
    .member (by decide : ("TaskGroups", Part.nodes .group) ∈ Kind.job.parts)
      (Json.textOfUnits_unitsOfText "TaskGroups") [type] [] <| .item [] [] .here
  have typed : Spells (.value (.object [type])) _ := .object spellsType .closeObject
  have groups := Spells.named "TaskGroups" (by decide) (.array typed .closeArray)
  have job := Spells.object spellsType (.nextMember groups .closeObject)
  have response : Spells (.value (path.fill (.object [type]))) _ :=
    .object (Spells.named "Diff" (by decide) job) .closeObject
  have none : Spells (.value (fields .null).2) _ := .null
  have empty : Spells (.value (fields (.array [])).2) _ := .emptyArray .closeArray
  have before : Spells (.value (.object [type, fields (.array [])])) _ :=
    .object spellsType (.nextMember (Spells.named "Fields" (by decide) empty) .closeObject)
  have after : Spells (.value (.object [type, fields .null])) _ :=
    .object spellsType (.nextMember (Spells.named "Fields" (by decide) none) .closeObject)
  have null : JobDiff.ofJson "\x7b\"Type\":\"Edited\",\"Fields\":null\x7d"
      = .ok { type := .edited } := by
    refine ofJson_strict.1.emptied (.here : Path (.node .job) .job) emptied
      (⟨_, [], before, by simp, rfl⟩ : Spelled _ "\x7b\"Type\":\"Edited\",\"Fields\":[]\x7d")
      ⟨_, [], after, by simp, by simp⟩ ?_
    decide +kernel
  refine ⟨faulty, ?_, emptied, null, alike, ?_⟩
  · exact ofJson_strict.2.refused path faulty ⟨_, [], response, by simp, by simp⟩
  · exact (ofJson_strict.1.alike (.here : Path (.node .job) .job) alike
      ⟨_, [], after, by simp, rfl⟩ ⟨_, [], typed, by simp, by simp⟩ _).mp null

end DeployGate.Plan
