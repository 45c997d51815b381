import DeployGate.Proofs.Json.DecodingRecords
import DeployGate.Proofs.Json.Rendering
import Mathlib.Data.List.Nodup

/-!
# The last members of objects

The keys of an object may come in any order, and more than once. An untyped value has each of them
once, with the value of its last member, and in ascending order.

## Main results

`foldMembers_eq_some_iff`: what the members of an object come to. `settles_of_decodeDatum`: a value
settles its tree at every level. `Tree.Shuffled.decodeDatum_eq`: members with keys of their own may
change places at every level.
-/

namespace DeployGate.Json

variable {β : Type}

/-! ### Insertion -/

theorem mem_insertMember_self (key : String) (value : β) (members : List (String × β)) :
    (key, value) ∈ insertMember key value members := by
  induction members with
  | nil => simp [insertMember]
  | cons first members ih =>
    rw [insertMember]
    split
    · simp
    · split
      · simp
      · exact List.mem_cons_of_mem _ ih

/-- The member that is replaced has the inserted key, so that every other member stays. -/
theorem mem_insertMember_other {key name : String} (differ : name ≠ key) {value value' : β}
    {members : List (String × β)} :
    (name, value') ∈ insertMember key value members ↔ (name, value') ∈ members := by
  induction members with
  | nil => simp [insertMember, differ]
  | cons first members ih =>
    obtain ⟨k, v⟩ := first
    rw [insertMember]
    split
    next same =>
      subst same
      simp [differ]
    next =>
      split
      · simp [differ]
      · simp [ih]

theorem Ascending.unique {members : List (String × β)} (ascending : Ascending members)
    {name : String} {value value' : β} (inside : (name, value) ∈ members)
    (inside' : (name, value') ∈ members) : value = value' := by
  have same := List.inj_on_of_nodup_map ascending.nodup inside inside' rfl
  exact (Prod.mk.inj same).2

theorem Members.mem_insert_iff {members : Members} {key name : String} {datum : Datum}
    {value : Value} :
    (name, value) ∈ (members.insert key datum).entries ↔
      (name = key ∧ value = datum.val) ∨ (name ≠ key ∧ (name, value) ∈ members.entries) := by
  have inserted : (key, datum.val) ∈ (members.insert key datum).entries :=
    mem_insertMember_self key datum.val members.entries
  by_cases same : name = key
  · subst same
    constructor
    · intro inside
      exact .inl ⟨rfl, (members.insert name datum).ascending.unique inside inserted⟩
    · rintro (⟨-, rfl⟩ | ⟨differ, -⟩)
      · exact inserted
      · exact absurd rfl differ
  · rw [Members.entries_insert, mem_insertMember_other same]
    simp [same]

theorem Ascending.ext_mem {members members' : List (String × β)} (ascending : Ascending members)
    (ascending' : Ascending members')
    (same : ∀ name value, (name, value) ∈ members ↔ (name, value) ∈ members') :
    members = members' := by
  apply ascending.eq_of_perm ascending'
  rw [List.perm_ext_iff_of_nodup (ascending.nodup.of_map _) (ascending'.nodup.of_map _)]
  rintro ⟨name, value⟩
  exact same name value

/-! ### Folds -/

variable {decode : Tree → Option Datum} {given given' : List (List Nat × Tree)}
  {state last : Members}

/-- The value is that of the last member with the name. -/
def Lasts (decode : Tree → Option Datum) (given : List (List Nat × Tree)) (name : String)
    (value : Value) : Prop :=
  ∃ tree datum, (valuesOf name given).getLast? = some tree ∧ decode tree = some datum ∧
    datum.val = value

/-- A member stays until another one with its key comes. -/
theorem mem_foldMembers_iff (folded : foldMembers (placeMember decode) state given = some last)
    {name : String} {value : Value} :
    (name, value) ∈ last.entries ↔
      Lasts decode given name value ∨
        (valuesOf name given = [] ∧ (name, value) ∈ state.entries) := by
  induction given generalizing state with
  | nil =>
    cases folded
    simp [Lasts, valuesOf]
  | cons member given ih =>
    obtain ⟨key, tree⟩ := member
    rw [foldMembers] at folded
    obtain ⟨name', spelled, folded⟩ := Option.bind_eq_some_iff.mp folded
    obtain ⟨next, placed, folded⟩ := Option.bind_eq_some_iff.mp folded
    obtain ⟨datum, read, rfl⟩ := Option.map_eq_some_iff.mp placed
    rw [ih folded, Members.mem_insert_iff, Lasts, Lasts, valuesOf_cons, spelled]
    -- this member is the last of its key only if the key does not come again
    by_cases same : name = name'
    · subst same
      cases valuesOf name given with
      | nil => simp [read, eq_comm]
      | cons => simp
    · simp [same, Ne.symm same]

/-- Members whose keys and values are all read come to an object. -/
theorem folds_of_read (state : Members)
    (read : ∀ key tree, (key, tree) ∈ given →
      (∃ name, textOfUnits key = some name) ∧ ∃ datum, decode tree = some datum) :
    ∃ last, foldMembers (placeMember decode) state given = some last := by
  induction given generalizing state with
  | nil => exact ⟨state, rfl⟩
  | cons member given ih =>
    obtain ⟨key, tree⟩ := member
    obtain ⟨⟨name, spelled⟩, datum, value⟩ := read key tree List.mem_cons_self
    obtain ⟨last, folded⟩ := ih (state.insert name datum) fun key tree inside =>
      read key tree (List.mem_cons_of_mem _ inside)
    refine ⟨last, ?_⟩
    rw [foldMembers, spelled, Option.bind_some, placeMember, value, Option.map_some,
      Option.bind_some, folded]

theorem text_of_folded (folded : foldMembers (placeMember decode) state given = some last)
    {key : List Nat} {tree : Tree} (inside : (key, tree) ∈ given) :
    ∃ name, textOfUnits key = some name := by
  induction given generalizing state with
  | nil => cases inside
  | cons member given ih =>
    rw [foldMembers] at folded
    obtain ⟨name, spelled, folded⟩ := Option.bind_eq_some_iff.mp folded
    obtain ⟨next, -, folded⟩ := Option.bind_eq_some_iff.mp folded
    rcases List.mem_cons.mp inside with rfl | inside
    · exact ⟨name, spelled⟩
    · exact ih folded inside

/-- The members of an object come to one that has, for each key, the value of its last member. -/
theorem foldMembers_eq_some_iff :
    foldMembers (placeMember decode) .empty given = some last ↔
      (∀ key tree, (key, tree) ∈ given →
        (∃ name, textOfUnits key = some name) ∧ ∃ datum, decode tree = some datum) ∧
      ∀ name value, (name, value) ∈ last.entries ↔ Lasts decode given name value := by
  have none (name : String) (value : Value) : (name, value) ∉ Members.empty.entries := by
    simp [Members.empty]
  constructor
  · intro folded
    constructor
    · intro key tree inside
      exact ⟨text_of_folded folded inside, (foldMembers_placeMember folded).1 key tree inside⟩
    · intro name value
      rw [mem_foldMembers_iff folded]
      simp [none]
  · rintro ⟨read, lasts⟩
    obtain ⟨last', folded⟩ := folds_of_read .empty read
    have same : last' = last := by
      apply Members.ext
      apply last'.ascending.ext_mem last.ascending
      intro name value
      rw [mem_foldMembers_iff folded, lasts]
      simp [none]
    rw [folded, same]

/-! ### Values -/

/-- The value says what the tree says, where the last member of a key counts. The keys of each
object ascend. -/
inductive Tree.Settles : Tree → Value → Prop
  | null : Settles .null .null
  | bool (value : Bool) : Settles (.bool value) (.bool value)
  | number {literal : List Char} {number : Number} : numberOf literal = some number →
    Settles (.number literal) (.number number)
  | string {units : List Nat} {text : String} : textOfUnits units = some text →
    Settles (.string units) (.string text)
  | array {trees : List Tree} {elements : List Value} : trees.length = elements.length →
    (∀ (index : Nat) tree element, trees[index]? = some tree → elements[index]? = some element →
      Settles tree element) →
      Settles (.array trees) (.array elements)
  | object {members : List (List Nat × Tree)} {entries : List (String × Value)} :
    Ascending entries → (∀ name, name ∈ entries.map Prod.fst ↔ some name ∈ keysOf members) →
    (∀ name value tree, (name, value) ∈ entries → (valuesOf name members).getLast? = some tree →
      Settles tree value) →
      Settles (.object members) (.object entries)

theorem getElem?_of_forall₂ {α : Type} {related : α → β → Prop} {as : List α} {bs : List β}
    (each : List.Forall₂ related as bs) {index : Nat} {a : α} {b : β}
    (found : as[index]? = some a) (found' : bs[index]? = some b) : related a b := by
  obtain ⟨lt, rfl⟩ := List.getElem?_eq_some_iff.mp found
  obtain ⟨lt', rfl⟩ := List.getElem?_eq_some_iff.mp found'
  exact (List.forall₂_iff_get.mp each).2 index lt lt'

theorem settles_of_listed {trees : List Tree} {data : List Datum}
    (each : ∀ tree datum, decode tree = some datum → tree.Settles datum.val)
    (listed : List.Forall₂ (fun tree datum => decode tree = some datum) trees data) :
    (Tree.array trees).Settles (Datum.array data).val := by
  apply Tree.Settles.array
  · simpa using listed.length_eq
  · intro index tree element found found'
    rw [List.getElem?_map] at found'
    obtain ⟨datum, there, rfl⟩ := Option.map_eq_some_iff.mp found'
    exact each tree datum (getElem?_of_forall₂ listed found there)

theorem settles_of_folded
    (each : ∀ tree datum, decode tree = some datum → tree.Settles datum.val)
    (folded : foldMembers (placeMember decode) .empty given = some last) :
    (Tree.object given).Settles (.object last.entries) := by
  obtain ⟨read, lasts⟩ := foldMembers_eq_some_iff.mp folded
  apply Tree.Settles.object last.ascending
  · intro name
    rw [mem_keysOf_iff]
    constructor
    · intro inside
      obtain ⟨⟨name, value⟩, held, rfl⟩ := List.mem_map.mp inside
      obtain ⟨tree, -, latest, -⟩ := (lasts name value).mp held
      rintro none
      rw [none] at latest
      cases latest
    · intro some
      have latest := List.getLast?_eq_some_getLast some
      obtain ⟨key, inside, -⟩ := mem_valuesOf.mp (List.mem_of_getLast? latest)
      obtain ⟨-, datum, value⟩ := read _ _ inside
      exact List.mem_map.mpr ⟨(name, datum.val), (lasts _ _).mpr ⟨_, _, latest, value, rfl⟩, rfl⟩
  · intro name value tree inside latest
    obtain ⟨tree', datum, latest', value, rfl⟩ := (lasts name value).mp inside
    cases latest.symm.trans latest'
    exact each tree datum value

theorem settles_of_decodeDatum {depth : Nat} {tree : Tree} {datum : Datum}
    (read : decodeDatum depth tree = some datum) : tree.Settles datum.val := by
  -- an inner value has one level less to open
  induction depth using Nat.strongRecOn generalizing tree datum with
  | ind depth ih =>
    rw [decodeDatum_eq] at read
    cases tree with
    | null =>
      cases read
      exact .null
    | bool value =>
      cases read
      exact .bool value
    | number literal =>
      rw [decodeDatumWithin] at read
      obtain ⟨number, stands, rfl⟩ := Option.map_eq_some_iff.mp read
      exact .number stands
    | string units =>
      rw [decodeDatumWithin] at read
      obtain ⟨text, stands, rfl⟩ := Option.map_eq_some_iff.mp read
      exact .string stands
    | array trees =>
      rw [decodeDatumWithin] at read
      obtain ⟨data, listed, rfl⟩ := Option.map_eq_some_iff.mp read
      obtain ⟨_, decode, same, inner, each⟩ := decodeList_eq_some_iff.mp listed
      cases same
      obtain ⟨depth, rfl, rfl⟩ := within_eq_some_iff.mp inner
      exact settles_of_listed (fun tree datum => ih depth (Nat.lt_succ_self depth)) each
    | object members =>
      rw [decodeDatumWithin] at read
      obtain ⟨last, gathered, rfl⟩ := Option.map_eq_some_iff.mp read
      obtain ⟨_, decode, same, inner, folded⟩ := decodeMembersOf_eq_some_iff.mp gathered
      cases same
      obtain ⟨depth, rfl, rfl⟩ := within_eq_some_iff.mp inner
      exact settles_of_folded (fun tree datum => ih depth (Nat.lt_succ_self depth)) folded

/-- A tree settles to one value only. -/
theorem Tree.Settles.unique {tree : Tree} {value value' : Value} (settles : tree.Settles value)
    (settles' : tree.Settles value') : value = value' := by
  induction settles generalizing value' with
  | null =>
    cases settles'
    rfl
  | bool value =>
    cases settles'
    rfl
  | number stands =>
    cases settles' with
    | number stands' => rw [Option.some.inj (stands.symm.trans stands')]
  | string stands =>
    cases settles' with
    | string stands' => rw [Option.some.inj (stands.symm.trans stands')]
  | @array trees elements length _ ih =>
    cases settles' with
    | @array _ elements' length' each' =>
      have same : elements = elements' := by
        apply List.ext_getElem (length.symm.trans length')
        intro index lt lt'
        have found := List.getElem?_eq_getElem (length.symm ▸ lt)
        exact ih index _ _ found (List.getElem?_eq_getElem lt)
          (each' index _ _ found (List.getElem?_eq_getElem lt'))
      rw [same]
  | @object members entries ascending keys _ ih =>
    cases settles' with
    | @object _ entries' ascending' keys' each' =>
      -- a key of either has a last value in the tree, to which both give the same
      have agree (name : String) (value value' : Value) (inside : (name, value) ∈ entries)
          (inside' : (name, value') ∈ entries') : value = value' := by
        have given := (keys name).mp (List.mem_map_of_mem inside)
        have latest := List.getLast?_eq_some_getLast (mem_keysOf_iff.mp given)
        exact ih name value _ inside latest (each' name value' _ inside' latest)
      have same : entries = entries' := by
        apply ascending.ext_mem ascending'
        intro name value
        constructor
        · intro inside
          have held := (keys' name).mpr ((keys name).mp (List.mem_map_of_mem inside))
          obtain ⟨⟨_, value'⟩, inside', rfl⟩ := List.mem_map.mp held
          rwa [agree _ value value' inside inside']
        · intro inside'
          have held := (keys name).mpr ((keys' name).mp (List.mem_map_of_mem inside'))
          obtain ⟨⟨_, value'⟩, inside, rfl⟩ := List.mem_map.mp held
          rwa [← agree _ value' value inside inside']
      rw [same]

/-! ### Members that change places -/

/-- Members of objects have changed places, at any level. No key of such an object comes twice. -/
inductive Tree.Shuffled : Tree → Tree → Prop
  | refl (tree : Tree) : Shuffled tree tree
  | array {trees trees' : List Tree} : trees.length = trees'.length →
    (∀ (index : Nat) tree tree', trees[index]? = some tree → trees'[index]? = some tree' →
      Shuffled tree tree') →
      Shuffled (.array trees) (.array trees')
  | object {members moved members' : List (List Nat × Tree)} : (keysOf members).Nodup →
    members.Perm moved → moved.map Prod.fst = members'.map Prod.fst →
    (∀ (index : Nat) member member', moved[index]? = some member →
      members'[index]? = some member' → Shuffled member.2 member'.2) →
      Shuffled (.object members) (.object members')

theorem valuesOf_perm {members members' : List (List Nat × Tree)}
    (distinct : (keysOf members).Nodup) (perm : members.Perm members') (name : String) :
    valuesOf name members = valuesOf name members' := by
  -- there is one value at most, so their order is nothing to look at
  have moved : (valuesOf name members).Perm (valuesOf name members') := perm.filterMap _
  rcases valuesOf_of_nodup distinct name with none | ⟨tree, one⟩
  · rw [none] at moved ⊢
    exact moved.nil_eq
  · rw [one] at moved ⊢
    exact (List.singleton_perm.mp moved)

/-- Members with keys of their own come to the same object in any order. -/
theorem foldMembers_perm (distinct : (keysOf given).Nodup) (perm : given.Perm given') :
    foldMembers (placeMember decode) .empty given
      = foldMembers (placeMember decode) .empty given' := by
  have lasts (name : String) (value : Value) :
      Lasts decode given name value ↔ Lasts decode given' name value := by
    rw [Lasts, Lasts, valuesOf_perm distinct perm]
  apply Option.ext
  intro last
  rw [foldMembers_eq_some_iff, foldMembers_eq_some_iff]
  simp only [perm.mem_iff, lasts]

theorem foldMembers_congr (keys : given.map Prod.fst = given'.map Prod.fst)
    (same : ∀ (index : Nat) member member', given[index]? = some member →
      given'[index]? = some member' → decode member.2 = decode member'.2) (state : Members) :
    foldMembers (placeMember decode) state given
      = foldMembers (placeMember decode) state given' := by
  induction given generalizing given' state with
  | nil =>
    obtain rfl : given' = [] := by simpa using keys.symm
    rfl
  | cons member given ih =>
    cases given' with
    | nil => cases keys
    | cons member' given' =>
      obtain ⟨first, others⟩ := List.cons.inj keys
      have value : decode member.2 = decode member'.2 := same 0 member member' rfl rfl
      have further (state : Members) :=
        ih others (fun index => same (index + 1)) state
      simp only [foldMembers, placeMember, first, value, further]

theorem mapM_congr {trees trees' : List Tree}
    (same : List.Forall₂ (fun tree tree' => decode tree = decode tree') trees trees') :
    trees.mapM decode = trees'.mapM decode := by
  induction same with
  | nil => rfl
  | cons first _ ih => rw [mapM_cons, mapM_cons, first, ih]

/-- A change of places makes no difference. -/
theorem Tree.Shuffled.decodeDatum_eq {tree tree' : Tree} (shuffled : tree.Shuffled tree')
    (depth : Nat) : decodeDatum depth tree = decodeDatum depth tree' := by
  induction shuffled generalizing depth with
  | refl => rfl
  | @array trees trees' length _ ih =>
    have items (inner : Nat) : trees.mapM (decodeDatum inner) = trees'.mapM (decodeDatum inner) :=
      mapM_congr (forall₂_of_getElem? length fun index tree tree' found found' =>
        ih index tree tree' found found' inner)
    cases depth with
    | zero => rfl
    | succ depth => simp only [decodeDatum, decodeDatumWithin, decodeList, Option.bind_some, items]
  | @object members moved members' distinct perm keys _ ih =>
    have folds (inner : Nat) : foldMembers (placeMember (decodeDatum inner)) .empty members
        = foldMembers (placeMember (decodeDatum inner)) .empty members' := by
      rw [foldMembers_perm distinct perm]
      exact foldMembers_congr keys (fun index member member' found found' =>
        ih index member member' found found' inner) .empty
    cases depth with
    | zero => rfl
    | succ depth =>
      simp only [decodeDatum, decodeDatumWithin, decodeMembersOf, Option.bind_some, folds]

theorem Members.toDatum_injective : Function.Injective Members.toDatum := by
  intro members members' same
  apply Members.ext
  injection congrArg Subtype.val same

theorem Tree.Shuffled.decodeMembersOf_eq {tree tree' : Tree} (shuffled : tree.Shuffled tree')
    (depth : Nat) :
    decodeMembersOf (within decodeDatum depth) tree
      = decodeMembersOf (within decodeDatum depth) tree' := by
  have same := shuffled.decodeDatum_eq depth
  cases shuffled with
  | refl => rfl
  | array => rfl
  | object =>
    rw [Json.decodeDatum_eq] at same
    exact Option.map_injective Members.toDatum_injective same

end DeployGate.Json
