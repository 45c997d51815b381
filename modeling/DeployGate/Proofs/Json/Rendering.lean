import DeployGate.Proofs.Json.DecodingObjects

/-!
# Renderings of untyped values

The trees that say the same as an untyped value: the members of an object may stand in any order. A
value is decoded of every one of them, as long as as many lists and objects may open as are open in
the tree.
-/

namespace DeployGate.Json

/-! ### Depth of trees -/

namespace Tree

mutual

/-- How many lists and objects are open at the innermost place of the tree. -/
def depth : Tree → Nat
  | array elements => depthElements elements + 1
  | object members => depthMembers members + 1
  | _ => 0

def depthElements : List Tree → Nat
  | [] => 0
  | element :: rest => max element.depth (depthElements rest)

def depthMembers : List (List Nat × Tree) → Nat
  | [] => 0
  | (_, value) :: rest => max value.depth (depthMembers rest)

end

variable {limit : Nat}

theorem depthElements_le_iff {elements : List Tree} :
    depthElements elements ≤ limit ↔ ∀ element ∈ elements, element.depth ≤ limit := by
  induction elements with
  | nil => simp [depthElements]
  | cons element elements ih => rw [depthElements, Nat.max_le, ih, List.forall_mem_cons]

theorem depthMembers_le_iff {members : List (List Nat × Tree)} :
    depthMembers members ≤ limit ↔ ∀ member ∈ members, member.2.depth ≤ limit := by
  induction members with
  | nil => simp [depthMembers]
  | cons member members ih => rw [depthMembers, Nat.max_le, ih, List.forall_mem_cons]

/-- Below a list one level less is left. -/
theorem depth_array_le {elements : List Tree} (shallow : (array elements).depth ≤ limit) :
    ∃ inner, limit = inner + 1 ∧ ∀ element ∈ elements, element.depth ≤ inner := by
  cases limit with
  | zero => cases shallow
  | succ inner =>
    rw [depth, Nat.add_le_add_iff_right, depthElements_le_iff] at shallow
    exact ⟨inner, rfl, shallow⟩

theorem depth_object_le {members : List (List Nat × Tree)}
    (shallow : (object members).depth ≤ limit) :
    ∃ inner, limit = inner + 1 ∧ ∀ member ∈ members, member.2.depth ≤ inner := by
  cases limit with
  | zero => cases shallow
  | succ inner =>
    rw [depth, Nat.add_le_add_iff_right, depthMembers_le_iff] at shallow
    exact ⟨inner, rfl, shallow⟩

end Tree

/-! ### Renderings -/

/-- The tree says the same as the value. How binary64 numbers are written is left open. -/
inductive Value.RenderedAs : Value → Tree → Prop
  | null : RenderedAs .null .null
  | bool (value : Bool) : RenderedAs (.bool value) (.bool value)
  | integer (value : Int) (lower upper) :
    RenderedAs (.number (.integer value lower upper)) (.number (toString value).toList)
  | string (text : String) : RenderedAs (.string text) (.string (unitsOfText text))
  | array {elements : List Value} {trees : List Tree} : elements.length = trees.length →
    (∀ (index : Nat) element tree, elements[index]? = some element → trees[index]? = some tree →
      RenderedAs element tree) →
      RenderedAs (.array elements) (.array trees)
  -- The entries may be shuffled.
  | object {entries shuffled : List (String × Value)} {members : List (List Nat × Tree)} :
    shuffled.Perm entries →
    members.map Prod.fst = shuffled.map (fun entry => unitsOfText entry.1) →
    (∀ (index : Nat) entry member, shuffled[index]? = some entry → members[index]? = some member →
      RenderedAs entry.2 member.2) →
      RenderedAs (.object entries) (.object members)

/-! ### Members in any order -/

theorem perm_insertMember {β : Type} {key : String} {value : β} {members : List (String × β)}
    (fresh : key ∉ members.map Prod.fst) :
    (insertMember key value members).Perm ((key, value) :: members) := by
  induction members with
  | nil => exact .refl _
  | cons member members ih =>
    rw [List.map_cons, List.mem_cons, not_or] at fresh
    rw [insertMember, if_neg fresh.1]
    split
    · exact .refl _
    · exact ((ih fresh.2).cons member).trans (.swap _ _ _)

/-- There is one order for members with the same keys and values. -/
theorem Ascending.eq_of_perm {β : Type} {members members' : List (String × β)}
    (ascending : Ascending members) (ascending' : Ascending members')
    (perm : members.Perm members') : members = members' := by
  apply perm.eq_of_pairwise ?_ (List.pairwise_map.mp ascending) (List.pairwise_map.mp ascending')
  intro _ _ _ _ before after
  exact absurd (before.trans after) (Text.not_precedes_self _)

theorem Members.eq_of_perm {a b : Members} (perm : a.entries.Perm b.entries) : a = b :=
  Members.ext (a.ascending.eq_of_perm b.ascending perm)

/-- Members with keys of their own all come into the object. -/
theorem foldMembers_fresh {decode : Tree → Option Datum} {state : Members}
    {entries : List (String × Value)} {members : List (List Nat × Tree)}
    (keys : members.map Prod.fst = entries.map fun entry => unitsOfText entry.1)
    (decoded : ∀ (index : Nat) entry member, entries[index]? = some entry →
      members[index]? = some member → ∃ datum, decode member.2 = some datum ∧ datum.val = entry.2)
    (fresh : (state.entries ++ entries).map Prod.fst |>.Nodup) :
    ∃ last, foldMembers (placeMember decode) state members = some last ∧
      last.entries.Perm (state.entries ++ entries) := by
  induction members generalizing state entries with
  | nil =>
    obtain rfl : entries = [] := by simpa using keys
    exact ⟨state, rfl, by rw [List.append_nil]⟩
  | cons member members ih =>
    obtain ⟨key, tree⟩ := member
    cases entries with
    | nil => cases keys
    | cons entry entries =>
      obtain ⟨name, value⟩ := entry
      rw [List.map_cons, List.map_cons] at keys
      obtain ⟨rfl, others⟩ := List.cons.inj keys
      obtain ⟨datum, read, rfl⟩ := decoded 0 _ _ rfl rfl
      have unused : name ∉ state.entries.map Prod.fst := by
        rw [List.map_append, List.nodup_append] at fresh
        exact fun inside => fresh.2.2 name inside name (by simp) rfl
      have inserted : ((state.insert name datum).entries ++ entries).Perm
          (state.entries ++ (name, datum.val) :: entries) :=
        ((perm_insertMember unused).append_right entries).trans List.perm_middle.symm
      obtain ⟨last, folded, perm⟩ := ih others (fun index => decoded (index + 1))
        ((inserted.map Prod.fst).nodup_iff.mpr fresh)
      refine ⟨last, ?_, perm.trans inserted⟩
      rw [foldMembers, textOfUnits_unitsOfText, Option.bind_some, placeMember, read,
        Option.map_some, Option.bind_some, folded]

theorem Ascending.nodup {β : Type} {members : List (String × β)} (ascending : Ascending members) :
    (members.map Prod.fst).Nodup := by
  refine ascending.imp fun before same => ?_
  subst same
  exact Text.not_precedes_self _ before

/-- The members of an object are read in any order. -/
theorem foldMembers_shuffled {decode : Tree → Option Datum} (last : Members)
    {shuffled : List (String × Value)} {members : List (List Nat × Tree)}
    (perm : shuffled.Perm last.entries)
    (keys : members.map Prod.fst = shuffled.map fun entry => unitsOfText entry.1)
    (decoded : ∀ (index : Nat) entry member, shuffled[index]? = some entry →
      members[index]? = some member → ∃ datum, decode member.2 = some datum ∧ datum.val = entry.2) :
    foldMembers (placeMember decode) .empty members = some last := by
  have fresh : ((Members.empty.entries ++ shuffled).map Prod.fst).Nodup :=
    (perm.map Prod.fst).nodup_iff.mpr last.ascending.nodup
  obtain ⟨found, folded, same⟩ := foldMembers_fresh keys decoded fresh
  rw [folded, Members.eq_of_perm (same.trans perm)]

/-! ### Decoding -/

theorem decodeText_unitsOfText (text : String) :
    decodeText (.string (unitsOfText text)) = some text :=
  textOfUnits_unitsOfText text

theorem numberOf_integer (value : Int) (lower upper) :
    numberOf (toString value).toList = some (.integer value lower upper) := by
  have read := run_readNumber value lower upper delimited_nil
  rw [List.append_nil, Number.render] at read
  rw [numberOf, read]

theorem decodeUnsigned_toNat (value : UInt64) :
    decodeUnsigned (.number (toString value.toNat).toList) = some value := by
  have upper : (value.toNat : Int) < 0x10000000000000000 := by
    have := value.toNat_lt
    omega
  have number : numberOf (toString value.toNat).toList = some (.integer value.toNat _ upper) :=
    numberOf_integer value.toNat (by omega) upper
  rw [decodeUnsigned, number]
  simp

theorem forall₂_of_getElem? {α β : Type} {related : α → β → Prop} {as : List α} {bs : List β}
    (length : as.length = bs.length)
    (each : ∀ (index : Nat) a b, as[index]? = some a → bs[index]? = some b → related a b) :
    List.Forall₂ related as bs := by
  rw [List.forall₂_iff_get]
  refine ⟨length, fun index lt lt' => ?_⟩
  exact each index _ _ (List.getElem?_eq_getElem lt) (List.getElem?_eq_getElem lt')

theorem decodeDatum_array {depth : Nat} {trees : List Tree} {data : List Datum}
    (listed : List.Forall₂ (fun tree datum => decodeDatum depth tree = some datum) trees data) :
    decodeDatum (depth + 1) (.array trees) = some (.array data) := by
  change (decodeList (some (decodeDatum depth)) (.array trees)).map Datum.array = _
  rw [decodeList_eq_some_iff.mpr ⟨trees, _, rfl, rfl, listed⟩, Option.map_some]

theorem decodeDatum_object {depth : Nat} {given : List (List Nat × Tree)} {members : Members}
    (folded : foldMembers (placeMember (decodeDatum depth)) .empty given = some members) :
    decodeDatum (depth + 1) (.object given) = some members.toDatum := by
  change (decodeMembersOf (some (decodeDatum depth)) (.object given)).map Members.toDatum = _
  rw [decodeMembersOf_eq_some_iff.mpr ⟨given, _, rfl, rfl, folded⟩, Option.map_some]

/-- Every rendering of a canonical value is decoded as it. -/
theorem Value.RenderedAs.decodeDatum {value : Value} {tree : Tree}
    (rendered : value.RenderedAs tree) (canonical : value.Canonical) {depth : Nat}
    (shallow : tree.depth ≤ depth) :
    Json.decodeDatum depth tree = some ⟨value, canonical⟩ := by
  -- what is inside stands one level further in, where one less may open
  induction rendered generalizing depth with
  | null | bool =>
    rw [decodeDatum_eq]
    rfl
  | integer value lower upper =>
    rw [decodeDatum_eq, decodeDatumWithin, numberOf_integer value lower upper]
    rfl
  | string text =>
    rw [decodeDatum_eq, decodeDatumWithin, textOfUnits_unitsOfText]
    rfl
  | @array elements trees length _ ih =>
    obtain ⟨inner, rfl, below⟩ := Tree.depth_array_le shallow
    cases canonical with
    | array canonical =>
      -- the elements together with the proofs that they are canonical
      obtain ⟨data, rfl⟩ : ∃ data : List Datum, data.map (·.val) = elements :=
        ⟨elements.attachWith _ canonical, List.attachWith_map_subtype_val canonical⟩
      refine decodeDatum_array (forall₂_of_getElem? (by simpa using length.symm) ?_)
      intro index tree datum found given
      have element : (data.map (·.val))[index]? = some datum.val := by
        rw [List.getElem?_map, given, Option.map_some]
      have shallow := below tree (List.mem_of_getElem? found)
      exact ih index datum.val tree element found datum.property shallow
  | @object entries shuffled members perm keys _ ih =>
    obtain ⟨inner, rfl, below⟩ := Tree.depth_object_le shallow
    cases canonical with
    | object ascending canonical =>
      refine decodeDatum_object (foldMembers_shuffled ⟨entries, ascending, canonical⟩ perm keys ?_)
      intro index entry member given found
      have canonical := canonical entry (perm.subset (List.mem_of_getElem? given))
      have shallow := below member (List.mem_of_getElem? found)
      exact ⟨_, ih index entry member given found canonical shallow, rfl⟩

theorem Value.RenderedAs.decodeMembersOf {members : Members} {tree : Tree}
    (rendered : (Value.object members.entries).RenderedAs tree) {depth : Nat}
    (shallow : tree.depth ≤ depth) :
    Json.decodeMembersOf (within Json.decodeDatum depth) tree = some members := by
  have datum := rendered.decodeDatum members.toDatum.property shallow
  cases rendered with
  | object =>
    rw [decodeDatum_eq, decodeDatumWithin] at datum
    obtain ⟨members', read, same⟩ := Option.map_eq_some_iff.mp datum
    obtain rfl : members' = members := by
      injection congrArg Subtype.val same with entries
      exact Members.ext entries
    exact read

end DeployGate.Json
