import DeployGate.Proofs.Json.Recovery

/-!
# Recovery of untyped values

A canonical value without binary64 numbers is recovered as it is. Its members are inserted one after
the other; as their keys ascend, each goes behind those before it.
-/

namespace DeployGate.Json

/-! ### Runs -/

section

variable (item : Option (Reader Datum)) (text : List Char)

theorem run_readDatumWithin_null :
    (readDatumWithin item).run ("null".toList ++ text) = .ok (.null, text) := by
  rw [readDatumWithin, run_afterBlank]
  exact run_readWord 'n' "ull" Datum.null text

theorem run_readDatumWithin_bool (value : Bool) :
    (readDatumWithin item).run ((if value then "true" else "false").toList ++ text)
      = .ok (.bool value, text) := by
  rw [readDatumWithin, run_afterBlank]
  cases value with
  | false => exact run_readWord 'f' "alse" (Datum.bool false) text
  | true => exact run_readWord 't' "rue" (Datum.bool true) text

theorem run_readDatumWithin_number {c : Char} (opening : c = '-' ∨ c.isDigit = true) :
    (readDatumWithin item).run (c :: text)
      = (readNumber.run (c :: text)).map (Prod.map Datum.number id) := by
  have noNull := ne_of_number opening (d := 'n') (by decide)
  have noTrue := ne_of_number opening (d := 't') (by decide)
  have noFalse := ne_of_number opening (d := 'f') (by decide)
  have noString := ne_of_number opening (d := '"') (by decide)
  have noList := ne_of_number opening (d := '[') (by decide)
  have noObject := ne_of_number opening (d := '\x7b') (by decide)
  rw [readDatumWithin, run_afterBlank, skipBlank_cons text (solid_of_number opening), Reader.run,
    Reader.run]
  simp only [List.cons.injEq, noNull, noTrue, noFalse, noString, noList, noObject, false_and,
    imp_self, implies_true]
  rw [if_pos (startsNumber_cons text opening)]
  cases readNumber (c :: text) <;> rfl

theorem run_readDatumWithin_string :
    (readDatumWithin item).run ('"' :: text)
      = (readText.run ('"' :: text)).map (Prod.map Datum.string id) := by
  rw [readDatumWithin, run_afterBlank, readText, run_afterBlank, skipBlank_cons text rfl,
    Reader.run, Reader.run]
  simp only
  cases readQuoted text <;> rfl

theorem run_readDatumWithin_array :
    (readDatumWithin item).run ('[' :: text)
      = ((readList item).run ('[' :: text)).map (Prod.map Datum.array id) := by
  rw [readDatumWithin, run_afterBlank, readList, run_afterBlank, skipBlank_cons text rfl,
    Reader.run, Reader.run]
  cases item with
  | none => rfl
  | some item =>
    simp only
    cases readElements item true text <;> rfl

theorem run_readDatumWithin_object :
    (readDatumWithin item).run ('\x7b' :: text)
      = ((readMembersOf item).run ('\x7b' :: text)).map (Prod.map Members.toDatum id) := by
  rw [readDatumWithin, run_afterBlank, readMembersOf, run_afterBlank, skipBlank_cons text rfl,
    Reader.run, Reader.run]
  cases item with
  | none => rfl
  | some item =>
    simp only
    cases readObject (memberValues item) .empty text <;> rfl

end

theorem run_readMembersOf_some (item : Reader Datum) (text : List Char) :
    (readMembersOf (some item)).run ('\x7b' :: text)
      = (readObject (memberValues item) .empty).run text := by
  rw [readMembersOf, run_afterBlank, skipBlank_cons text rfl]
  exact map_later _

theorem run_readMembersOf_none (text : List Char) :
    (readMembersOf none).run ('\x7b' :: text) = .error (.next .tooDeep ('\x7b' :: text)) := by
  rw [readMembersOf, run_afterBlank, skipBlank_cons text rfl]
  rfl

/-! ### Members -/

/-- A member whose key comes after all others is inserted at the end. -/
theorem insertMember_append {β : Type} {key : String} {value : β} {members : List (String × β)}
    (last : ∀ member ∈ members, Text.Precedes member.1 key) :
    insertMember key value members = members ++ [(key, value)] := by
  induction members with
  | nil => rfl
  | cons member members ih =>
    obtain ⟨first, others⟩ := List.forall_mem_cons.mp last
    have differ : key ≠ member.1 := by
      rintro rfl
      exact Text.not_precedes_self _ first
    have notBefore : ¬ Text.Precedes key member.1 := fun before =>
      Text.not_precedes_self _ (before.trans first)
    rw [insertMember, if_neg differ, if_neg notBefore, ih others, List.cons_append]

namespace Members

theorem ext {a b : Members} (same : a.entries = b.entries) : a = b := by
  cases a
  cases b
  cases same
  rfl

theorem entries_insert (members : Members) (key : String) (value : Datum) :
    (members.insert key value).entries = insertMember key value.val members.entries :=
  rfl

variable {item : Reader Datum} {depth : Nat}

/-- Members that follow those which are there are put behind them. -/
theorem folds {before last : Members} {after : List (String × Value)}
    (entries : last.entries = before.entries ++ after)
    (recover : ∀ member ∈ after, ∀ canonical : member.2.Canonical,
      Recovers depth item member.2 ⟨member.2, canonical⟩) :
    Folds (fun members key reader => memberValues item members key = .ok reader) depth before after
      last := by
  induction after generalizing before with
  | nil =>
    rw [List.append_nil] at entries
    obtain rfl := ext entries
    exact .nil
  | cons member after ih =>
    obtain ⟨key, value⟩ := member
    obtain ⟨recovers, recover⟩ := List.forall_mem_cons.mp recover
    have canonical : value.Canonical := last.canonical (key, value) (by simp [entries])
    -- the keys of the whole object ascend, so this one comes after all that are there
    have behind : ∀ member ∈ before.entries, Text.Precedes member.1 key := by
      have ascending := last.ascending
      rw [entries, Ascending, List.map_append, List.pairwise_append] at ascending
      intro member inside
      exact ascending.2.2 _ (List.mem_map_of_mem inside) _ (by simp)
    refine .cons rfl ((recovers canonical).map (before.insert key)) (ih ?_ recover)
    rw [entries, entries_insert, insertMember_append behind, List.append_assoc]
    rfl

end Members

/-! ### Values -/

namespace Recovers

variable {depth : Nat}

/-- An object is recovered when its members are, one level further in. -/
theorem members {item : Reader Datum} (members : Members)
    (recover : ∀ member ∈ members.entries, ∀ canonical : member.2.Canonical,
      Recovers depth item member.2 ⟨member.2, canonical⟩) :
    Recovers (depth + 1) (readMembersOf (some item)) (.object members.entries) members := by
  have folds : Folds (fun members key reader => memberValues item members key = .ok reader) depth
      .empty members.entries members := Members.folds rfl recover
  refine ⟨folds.integral, fun rest delimited => ?_⟩
  obtain ⟨text, opened, ends⟩ := folds.ends_object (fun _ _ _ accepted => accepted) rest
  rw [opened, run_readMembersOf_some]
  exact ends.congr Value.depth_object_le.symm

theorem members_within {read : Nat → Reader Datum} (members : Members)
    (recover : ∀ depth, ∀ member ∈ members.entries, ∀ canonical : member.2.Canonical,
      Recovers depth (read depth) member.2 ⟨member.2, canonical⟩) :
    Recovers depth (readMembersOf (within read depth)) (.object members.entries) members := by
  cases depth with
  | zero =>
    obtain ⟨text, opened⟩ := Value.compact_object members.entries
    exact .shut (Recovers.members members (recover 0)).integral
      (by rw [Value.depth]; exact Nat.succ_pos _) opened run_readMembersOf_none
  | succ depth => exact Recovers.members members (recover depth)

theorem readDatum_eq (depth : Nat) :
    readDatum depth = readDatumWithin (within readDatum depth) := by
  cases depth <;> rfl

/-- A canonical value without binary64 numbers is recovered as it is. -/
theorem datum {value : Value} (integral : value.Integral) (canonical : value.Canonical) :
    Recovers depth (readDatum depth) value ⟨value, canonical⟩ := by
  induction integral generalizing depth with
  | null =>
    refine scalar .null rfl fun rest _ => ?_
    rw [Value.compact, readDatum_eq, run_readDatumWithin_null]
    rfl
  | bool value =>
    refine scalar (.bool value) rfl fun rest _ => ?_
    rw [Value.compact, readDatum_eq, run_readDatumWithin_bool]
    rfl
  | integer value lower upper =>
    refine scalar (.integer value lower upper) rfl fun rest delimited => ?_
    obtain ⟨c, text, rendered, opening⟩ := head_render value lower upper
    have number := run_readNumber value lower upper delimited
    rw [rendered, List.cons_append] at number
    rw [Value.compact, rendered, List.cons_append, readDatum_eq,
      run_readDatumWithin_number _ _ opening, number]
    rfl
  | string value =>
    refine ((text depth value).map Datum.string).of_run (by rw [Value.compact, writeString]) ?_
    intro rest
    rw [readDatum_eq, run_readDatumWithin_string, run_map]
  | @array elements integral ih =>
    cases canonical with
    | array canonical =>
      -- the elements together with the proofs that they are canonical
      obtain ⟨data, rfl⟩ : ∃ data : List Datum, data.map (·.val) = elements :=
        ⟨elements.attachWith _ canonical, List.attachWith_map_subtype_val canonical⟩
      have recovers : Recovers depth (readList (within readDatum depth))
          (.array (data.map (·.val))) (data.map id) := by
        refine list_within data fun depth datum inside => ?_
        exact ih datum.val (List.mem_map_of_mem inside) datum.property
      obtain ⟨opened, begins⟩ := Value.compact_array (data.map (·.val))
      rw [List.map_id] at recovers
      refine (recovers.map Datum.array).of_run begins fun rest => ?_
      rw [readDatum_eq, run_readDatumWithin_array, run_map]
  | @object entries integral ih =>
    cases canonical with
    | object ascending canonical =>
      obtain ⟨opened, begins⟩ := Value.compact_object entries
      refine ((members_within ⟨entries, ascending, canonical⟩ fun depth member inside canonical =>
        ih member inside canonical).map Members.toDatum).of_run begins fun rest => ?_
      rw [readDatum_eq, run_readDatumWithin_object, run_map]

end Recovers

end DeployGate.Json
