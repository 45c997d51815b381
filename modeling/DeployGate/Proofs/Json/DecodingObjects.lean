import DeployGate.Proofs.Json.Decoding
import DeployGate.Proofs.Json.Untyped

/-!
# Decoding objects

The members of an object are folded in their order. What a fold makes of an object is again a
function of the tree, and so is what an untyped value is read as.
-/

namespace DeployGate.Json

variable {α β σ : Type}

/-! ### Members -/

/-- The state after the members, each of which is put in its place, unless one of them has none or
its key is not a text. -/
def foldMembers (place : σ → String → Tree → Option σ) (state : σ) :
    List (List Nat × Tree) → Option σ
  | [] => some state
  | (key, tree) :: members =>
    (textOfUnits key).bind fun name =>
      (place state name tree).bind fun next => foldMembers place next members

/-- The reader for a member does what is told of its tree. -/
def Places (member : MemberFold σ) (place : σ → String → Tree → Option σ) : Prop :=
  ∀ state name, match member state name with
    | .ok reader => Reads reader (place state name)
    | .error _ => ∀ tree, place state name tree = none

section

variable {member : MemberFold σ} {place : σ → String → Tree → Option σ} {state : σ}
  {members : List (List Nat × Tree)} {text rest : List Char}

theorem gives_afterColon {reader : Reader α} {decode : Tree → Option α} {tree : Tree}
    (reads : Reads reader decode) (spells : Spells (.entry tree) text) (ends : tree.Ends rest) :
    Gives rest ((afterColon reader).run (text ++ rest)) (decode tree) := by
  obtain ⟨c, more, spells, solid, skipped⟩ := spells.solid
  cases spells with
  | blank blank => cases blank.symm.trans solid
  | entry spells =>
    have read := run_afterColon reader (more ++ rest)
    rw [afterColon, run_afterBlank, skipBlank_cons _ solid] at read
    rw [afterColon, run_afterBlank, skipped, read]
    exact reads.gives rest spells ends

/-- The end of the object, if no further member follows. -/
theorem runAfterMember_close (spells : Spells (.members []) text) (rest : List Char) :
    runAfterMember member state (text ++ rest) = .ok (state, rest) := by
  obtain ⟨c, more, spells, solid, skipped⟩ := spells.solid
  cases spells with
  | blank blank => cases blank.symm.trans solid
  | closeObject =>
    rw [runAfterMember, skipped]
    rfl

theorem spells_member {key : List Nat} {tree : Tree} (spells : Spells (.member key tree) text) :
    ∃ letters entry, Letters key letters ∧ Spells (.entry tree) entry ∧
      ∀ rest, skipBlank (text ++ rest) = '"' :: (letters ++ '"' :: (entry ++ rest)) := by
  obtain ⟨c, more, spells, solid, skipped⟩ := spells.solid
  cases spells with
  | blank blank => cases blank.symm.trans solid
  | @member _ _ letters entry spelled spells =>
    exact ⟨letters, entry, spelled, spells, fun rest => by simpa using skipped rest⟩

theorem runAfterMember_next {key : List Nat} {tree : Tree}
    (spells : Spells (.members ((key, tree) :: members)) text) :
    ∃ letters entry more, Letters key letters ∧ Spells (.entry tree) entry ∧
      Spells (.members members) more ∧ ∀ (state : σ) rest,
        runAfterMember member state (text ++ rest) =
          Reader.run (readMembers member state) (letters ++ '"' :: (entry ++ (more ++ rest))) := by
  obtain ⟨c, more, spells, solid, skipped⟩ := spells.solid
  cases spells with
  | blank blank => cases blank.symm.trans solid
  | @nextMember _ _ _ first more spells further =>
    obtain ⟨letters, entry, spelled, spells, skipped'⟩ := spells_member spells
    refine ⟨letters, entry, more, spelled, spells, further, fun state rest => ?_⟩
    rw [runAfterMember, skipped, List.append_assoc]
    simp only [skipped']

/-- A member is put in its place, and what follows it is read. -/
theorem gives_member (places : Places member place) {key : List Nat} {tree : Tree}
    {letters entry more : List Char} (spelled : Letters key letters)
    (spells : Spells (.entry tree) entry) (ends : tree.Ends (more ++ rest))
    (further : ∀ next, Gives rest (runAfterMember member next (more ++ rest))
      (foldMembers place next members)) :
    Gives rest (Reader.run (readMembers member state) (letters ++ '"' :: (entry ++ (more ++ rest))))
      (foldMembers place state ((key, tree) :: members)) := by
  rw [run_readMembers, foldMembers]
  refine (gives_readQuoted spelled _).bind fun name => ?_
  have placed := places state name
  cases known : member state name with
  | error cause =>
    rw [known] at placed
    simp only [known, placed tree]
    exact .fault _
  | ok reader =>
    rw [known] at placed
    simp only [known]
    exact (gives_afterColon placed spells ends).bind further

theorem gives_afterMember (places : Places member place)
    (spells : Spells (.members members) text) (state : σ) (rest : List Char) :
    Gives rest (runAfterMember member state (text ++ rest)) (foldMembers place state members) := by
  -- each member leaves another state to the members after it
  induction members generalizing state text with
  | nil =>
    rw [runAfterMember_close spells]
    exact .value state
  | cons first members ih =>
    obtain ⟨key, tree⟩ := first
    obtain ⟨letters, entry, more, spelled, spells, further, next⟩ := runAfterMember_next spells
    rw [next]
    have delimited := further.delimited_members rest
    exact gives_member places spelled spells (.of_delimited tree delimited) (ih further)

theorem gives_readObject (places : Places member place)
    (spells : Spells (.value (.object members)) ('\x7b' :: text)) (rest : List Char) :
    Gives rest ((readObject member state).run (text ++ rest))
      (foldMembers place state members) := by
  rw [readObject, run_afterBlank]
  cases spells with
  | blank blank => cases blank
  | emptyObject spells =>
    obtain ⟨c, more, spells, solid, skipped⟩ := spells.solid
    cases spells with
    | blank blank => cases blank.symm.trans solid
    | closeObject =>
      rw [skipped]
      exact .value state
  | @object key tree members first more spells further =>
    obtain ⟨letters, entry, spelled, spells, skipped⟩ := spells_member spells
    rw [List.append_assoc, skipped, Reader.run]
    simp only
    rw [map_later]
    have delimited := further.delimited_members rest
    exact gives_member places spelled spells (.of_delimited tree delimited)
      (gives_afterMember places further · rest)

theorem begins_of_afterColon {reader : Reader α} {decode : Tree → Option α}
    (reads : Reads reader decode) {found : Found α text}
    (read : afterColon reader text = .ok found) :
    ∃ tree, Begins (.entry tree) text found.rest := by
  obtain ⟨found, inner, rfl⟩ := map_eq_ok_iff.mp read
  rw [Found.rest_widen]
  clear read
  generalize skipped : skipBlank text = given at found inner
  beta_reduce at inner
  split at inner
  next => cases inner
  next =>
    obtain ⟨found, value, rfl⟩ := map_eq_ok_iff.mp inner
    obtain ⟨tree, begins⟩ := reads.begins value
    have entry := begins.entry
    rw [← skipped] at entry
    exact ⟨tree, entry.of_skipBlank⟩
  next => cases inner

/-- A member from the inside of its key on. -/
theorem begins_of_member (places : Places member place) {name : String} {afterKey after : List Char}
    {next : σ} {shorterKey shorter} {reader : Reader σ}
    (quoted : readQuoted text = .ok ⟨name, afterKey, shorterKey⟩)
    (known : member state name = .ok reader)
    (value : afterColon reader afterKey = .ok ⟨next, after, shorter⟩) :
    ∃ key tree, Begins (.member key tree) ('"' :: text) after := by
  obtain ⟨found, inner, same⟩ := map_eq_ok_iff.mp quoted
  obtain ⟨key, letters, spells, left⟩ := letters_of_readString inner
  have placed := places state name
  rw [known] at placed
  obtain ⟨tree, entry⟩ := begins_of_afterColon placed value
  have rest : found.rest = afterKey := congrArg (·.rest) same
  rw [left, rest]
  exact ⟨key, tree, .member spells entry⟩

theorem begins_of_readMembers (places : Places member place) {found : Found σ text}
    (read : readMembers member state text = .ok found) :
    ∃ key tree members middle, Begins (.member key tree) ('"' :: text) middle ∧
      Begins (.members members) middle found.rest := by
  fun_induction readMembers member state text with
  -- the last member, with the closing bracket behind its value
  | case5 state text name afterKey _ quoted reader known next after _ value rest skipped =>
    cases read
    obtain ⟨key, tree, begins⟩ := begins_of_member places quoted known value
    exact ⟨key, tree, [], after, begins, .of_skipBlank (skipped ▸ .closeObject rest)⟩
  -- a comma and the key of another member behind the value
  | case7 state text name afterKey _ quoted reader known next after _ value rest skipped _ inKey
      skipped' _ ih =>
    obtain ⟨found, inner, rfl⟩ := map_eq_ok_iff.mp read
    obtain ⟨key, tree, begins⟩ := begins_of_member places quoted known value
    obtain ⟨key', tree', members, middle, first, others⟩ := ih inner
    have further : Begins (.member key' tree') rest middle := .of_skipBlank (skipped' ▸ first)
    exact ⟨key, tree, (key', tree') :: members, after, begins,
      .of_skipBlank (skipped ▸ further.nextMember others)⟩
  | _ => cases read

theorem begins_of_readObject (places : Places member place) {found : Found σ text}
    (read : readObject member state text = .ok found) :
    ∃ tree, Begins (.value tree) ('\x7b' :: text) found.rest := by
  obtain ⟨found, inner, rfl⟩ := map_eq_ok_iff.mp read
  rw [Found.rest_widen]
  clear read
  generalize skipped : skipBlank text = given at found inner
  beta_reduce at inner
  split at inner
  next => cases inner
  next rest =>
    cases inner
    have ends : Begins (.members []) text rest := .of_skipBlank (skipped ▸ .closeObject rest)
    exact ⟨_, ends.emptyObject⟩
  next inKey =>
    obtain ⟨found, members, rfl⟩ := map_eq_ok_iff.mp inner
    obtain ⟨key, tree, others, middle, first, others⟩ := begins_of_readMembers places members
    have first : Begins (.member key tree) text middle := .of_skipBlank (skipped ▸ first)
    exact ⟨_, first.object others⟩
  next => cases inner

end

/-! ### Untyped values -/

/-- A member of an untyped object takes the place of the member with its key. -/
def placeMember (decode : Tree → Option Datum) (members : Members) (name : String) (tree : Tree) :
    Option Members :=
  (decode tree).map (members.insert name)

def decodeMembersOf (item : Option (Tree → Option Datum)) : Tree → Option Members
  | .object members => item.bind fun decode => foldMembers (placeMember decode) .empty members
  | _ => none

theorem decodeMembersOf_eq_some_iff {item : Option (Tree → Option Datum)} {tree : Tree}
    {members : Members} :
    decodeMembersOf item tree = some members ↔
      ∃ given decode, tree = .object given ∧ item = some decode ∧
        foldMembers (placeMember decode) .empty given = some members := by
  cases tree with
  | object given => cases item <;> simp [decodeMembersOf]
  | _ => simp [decodeMembersOf]

/-- Every member is read, and nothing else comes into the object. -/
theorem foldMembers_placeMember {decode : Tree → Option Datum} {state last : Members}
    {given : List (List Nat × Tree)}
    (folded : foldMembers (placeMember decode) state given = some last) :
    (∀ key tree, (key, tree) ∈ given → ∃ datum, decode tree = some datum) ∧
      ∀ entry ∈ last.entries, entry ∈ state.entries ∨
        ∃ key tree name datum, (key, tree) ∈ given ∧ textOfUnits key = some name ∧
          decode tree = some datum ∧ entry.2 = datum.val := by
  induction given generalizing state with
  | nil =>
    cases folded
    exact ⟨by simp, fun entry inside => .inl inside⟩
  | cons member given ih =>
    obtain ⟨key, tree⟩ := member
    rw [foldMembers] at folded
    obtain ⟨name, spelled, folded⟩ := Option.bind_eq_some_iff.mp folded
    obtain ⟨next, placed, folded⟩ := Option.bind_eq_some_iff.mp folded
    obtain ⟨datum, read, rfl⟩ := Option.map_eq_some_iff.mp placed
    obtain ⟨others, origin⟩ := ih folded
    constructor
    · intro key' tree' inside
      rcases List.mem_cons.mp inside with same | inside
      · cases same
        exact ⟨datum, read⟩
      · exact others key' tree' inside
    · intro entry inside
      rcases origin entry inside with before | ⟨key', tree', name', datum', later, found⟩
      · rcases mem_insertMember before with rfl | before
        · exact .inr ⟨key, tree, name, datum, List.mem_cons_self, spelled, read, rfl⟩
        · exact .inl before
      · exact .inr ⟨key', tree', name', datum', List.mem_cons_of_mem _ later, found⟩

def decodeDatumWithin (item : Option (Tree → Option Datum)) : Tree → Option Datum
  | .null => some .null
  | .bool value => some (.bool value)
  | .number literal => (numberOf literal).map .number
  | .string units => (textOfUnits units).map .string
  | .array trees => (decodeList item (.array trees)).map .array
  | .object members => (decodeMembersOf item (.object members)).map Members.toDatum

def decodeDatum : (depth : Nat) → Tree → Option Datum
  | 0 => decodeDatumWithin none
  | depth + 1 => decodeDatumWithin (some (decodeDatum depth))

theorem decodeDatum_eq (depth : Nat) :
    decodeDatum depth = decodeDatumWithin (within decodeDatum depth) := by
  cases depth <;> rfl

namespace Reads

theorem placeMember {item : Reader Datum} {decode : Tree → Option Datum}
    (reads : Reads item decode) : Places (memberValues item) (placeMember decode) :=
  fun members name => reads.map (members.insert name)

variable {item : Option (Reader Datum)} {decode : Option (Tree → Option Datum)}

theorem membersOf (reads : Option.Rel Reads item decode) :
    Reads (readMembersOf item) (decodeMembersOf decode) := by
  refine afterBlank ?_ ?_
  · intro tree c text rest spells opens ends
    generalize whole : c :: (text ++ rest) = given
    rw [Reader.run]
    split
    next =>
      obtain ⟨rfl, rfl⟩ := List.cons.inj whole
      obtain ⟨members, rfl⟩ := opens.of_brace
      cases reads with
      | none => exact .fault _
      | some reads =>
        simp only
        rw [map_later]
        exact gives_readObject reads.placeMember spells rest
    next noBrace =>
      have refused : decodeMembersOf decode tree = none := by
        cases tree with
        | object members => exact absurd (whole.symm.trans (congrArg (· :: _) opens)) (noBrace _)
        | _ => rfl
      rw [refused]
      exact .fault _
  · intro text found read
    split at read
    · cases reads with
      | none => cases read
      | some reads =>
        obtain ⟨found, members, rfl⟩ := map_eq_ok_iff.mp read
        exact begins_of_readObject reads.placeMember members
    · cases read

/-- What an untyped value is read as, from its first character on. -/
theorem gives_readDatumWithin (reads : Option.Rel Reads item decode) {tree : Tree} {c : Char}
    {text rest : List Char} (spells : Spells (.value tree) (c :: text)) (opens : tree.Opens c)
    (ends : tree.Ends rest) :
    Gives rest ((readDatumWithin item).run (c :: (text ++ rest)))
      (decodeDatumWithin decode tree) := by
  cases tree with
  | null =>
    cases opens
    obtain rfl := spells_null spells
    have read : (readDatumWithin item).run ('n' :: ("ull".toList ++ rest)) = .ok (.null, rest) :=
      run_readDatumWithin_null item rest
    rw [read]
    exact .value _
  | bool value =>
    have read := run_readDatumWithin_bool item rest value
    rw [← spells_bool spells opens] at read
    rw [← List.cons_append, read]
    exact .value _
  | number literal =>
    obtain ⟨numeral, rfl⟩ := spells_number spells opens
    rw [run_readDatumWithin_number _ _ opens]
    exact (gives_numberOf numeral ends).map Datum.number
  | string units =>
    cases opens
    rw [run_readDatumWithin_string]
    exact (Reads.text.gives rest spells trivial).map Datum.string
  | array trees =>
    cases opens
    rw [run_readDatumWithin_array]
    exact ((list reads).gives rest spells trivial).map Datum.array
  | object members =>
    cases opens
    rw [run_readDatumWithin_object]
    exact ((membersOf reads).gives rest spells trivial).map Members.toDatum

theorem datumWithin (reads : Option.Rel Reads item decode) :
    Reads (readDatumWithin item) (decodeDatumWithin decode) where
  gives {tree whole} rest spells ends := by
    obtain ⟨c, text, spells, solid, skipped⟩ := spells.solid
    have entire : (readDatumWithin item).run (whole ++ rest)
        = (readDatumWithin item).run (c :: (text ++ rest)) := by
      rw [readDatumWithin, run_afterBlank, run_afterBlank, skipped, skipBlank_cons _ solid]
    rw [entire]
    exact gives_readDatumWithin reads spells (spells.opens solid) ends
  begins {text found} read := by
    obtain ⟨found, inner, rfl⟩ := map_eq_ok_iff.mp read
    have begins : ∃ tree, Begins (.value tree) (skipBlank text) found.rest := by
      clear read
      generalize skipBlank text = given at found inner
      beta_reduce at inner
      split at inner
      · cases inner
      · exact ⟨.null, begins_of_readWord inner .null⟩
      · exact ⟨.bool true, begins_of_readWord inner (.bool true)⟩
      · exact ⟨.bool false, begins_of_readWord inner (.bool false)⟩
      · obtain ⟨found, quoted, rfl⟩ := map_eq_ok_iff.mp inner
        exact begins_of_readQuoted quoted
      · cases reads with
        | none => cases inner
        | some reads =>
          obtain ⟨found, elements, rfl⟩ := map_eq_ok_iff.mp inner
          exact lists_of_readElements reads elements
      · cases reads with
        | none => cases inner
        | some reads =>
          obtain ⟨found, members, rfl⟩ := map_eq_ok_iff.mp inner
          exact begins_of_readObject reads.placeMember members
      · split at inner
        · obtain ⟨found, number, rfl⟩ := map_eq_ok_iff.mp inner
          exact begins_of_readNumber number
        · cases inner
    obtain ⟨tree, begins⟩ := begins
    exact ⟨tree, begins.of_skipBlank⟩

theorem datum (depth : Nat) : Reads (readDatum depth) (decodeDatum depth) := by
  induction depth with
  | zero => exact datumWithin .none
  | succ depth ih => exact datumWithin (.some ih)

end Reads

end DeployGate.Json
