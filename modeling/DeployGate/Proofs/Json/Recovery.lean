import DeployGate.Json.Canonical
import DeployGate.Proofs.Json.Scalars
import Mathlib.Data.List.Forall2

/-!
# Recovery from the compact form

What a reader recovers from the compact form of a value, and how deep the value may be nested for
that. Everything here is about a reader that is given the compact form and whatever follows it: it
either recovers what was written and leaves what follows, or it finds that the value is nested too
deeply. Lists and objects are recovered when their parts are, inside one more level.
-/

namespace DeployGate.Json

variable {α β σ : Type}

/-! ### Nesting -/

namespace Value

mutual

/-- How many lists and objects are open at the innermost place of the value. -/
def depth : Value → Nat
  | array elements => depthElements elements + 1
  | object members => depthMembers members + 1
  | _ => 0

def depthElements : List Value → Nat
  | [] => 0
  | element :: rest => max element.depth (depthElements rest)

def depthMembers : List (String × Value) → Nat
  | [] => 0
  | (_, value) :: rest => max value.depth (depthMembers rest)

end

theorem depth_array_le {elements : List Value} {limit : Nat} :
    (array elements).depth ≤ limit + 1 ↔ depthElements elements ≤ limit := by
  rw [depth, Nat.add_le_add_iff_right]

theorem depth_object_le {members : List (String × Value)} {limit : Nat} :
    (object members).depth ≤ limit + 1 ↔ depthMembers members ≤ limit := by
  rw [depth, Nat.add_le_add_iff_right]

theorem depthElements_le_iff {elements : List Value} {limit : Nat} :
    depthElements elements ≤ limit ↔ ∀ element ∈ elements, element.depth ≤ limit := by
  induction elements with
  | nil => simp [depthElements]
  | cons element elements ih => rw [depthElements, Nat.max_le, ih, List.forall_mem_cons]

theorem depthMembers_le_iff {members : List (String × Value)} {limit : Nat} :
    depthMembers members ≤ limit ↔ ∀ member ∈ members, member.2.depth ≤ limit := by
  induction members with
  | nil => simp [depthMembers]
  | cons member members ih => rw [depthMembers, Nat.max_le, ih, List.forall_mem_cons]

/-- No number in the value is a binary64 number. -/
inductive Integral : Value → Prop
  | null : Integral null
  | bool (value : Bool) : Integral (bool value)
  | integer (value : Int) (lower upper) : Integral (number (.integer value lower upper))
  | string (value : String) : Integral (string value)
  | array {elements : List Value} :
    (∀ element ∈ elements, Integral element) → Integral (array elements)
  | object {members : List (String × Value)} :
    (∀ member ∈ members, Integral member.2) → Integral (object members)

theorem compact_array (elements : List Value) : ∃ text, (array elements).compact = '[' :: text := by
  cases elements with
  | nil => exact ⟨_, by rw [compact]⟩
  | cons element rest => exact ⟨_, by rw [compact]⟩

theorem compact_object (members : List (String × Value)) :
    ∃ text, (object members).compact = '\x7b' :: text := by
  cases members with
  | nil => exact ⟨_, by rw [compact]⟩
  | cons member rest => exact ⟨_, by rw [compact]⟩

/-- No compact form begins with a blank character or looks like the end of a list, and none but that
of `null` begins like `null`. -/
theorem Integral.opens {value : Value} (integral : value.Integral) :
    ∃ c text, value.compact = c :: text ∧ isBlank c = false ∧ c ≠ ']' ∧
      (value ≠ .null → c ≠ 'n') := by
  cases integral with
  | null => exact ⟨'n', _, by rw [compact]; rfl, rfl, by decide, fun differ => absurd rfl differ⟩
  | bool value =>
    cases value with
    | false => exact ⟨'f', _, by rw [compact]; rfl, rfl, by decide, fun _ => by decide⟩
    | true => exact ⟨'t', _, by rw [compact]; rfl, rfl, by decide, fun _ => by decide⟩
  | integer value lower upper =>
    obtain ⟨c, text, rendered, opening⟩ := head_render value lower upper
    exact ⟨c, text, by rw [compact, rendered], solid_of_number opening,
      ne_of_number opening (by decide), fun _ => ne_of_number opening (by decide)⟩
  | string value =>
    exact ⟨'"', _, by rw [compact, writeString], rfl, by decide, fun _ => by decide⟩
  | @array elements =>
    obtain ⟨text, opened⟩ := compact_array elements
    exact ⟨'[', text, opened, rfl, by decide, fun _ => by decide⟩
  | @object members =>
    obtain ⟨text, opened⟩ := compact_object members
    exact ⟨'\x7b', text, opened, rfl, by decide, fun _ => by decide⟩

end Value

/-! ### Readings -/

/-- A reading gives the value and leaves the rest as long as the condition holds, and else it comes
upon a list or object that is nested too deeply. -/
structure Ends (reading : Except Fault (α × List Char)) (fits : Prop) (value : α)
    (rest : List Char) : Prop where
  found : fits → reading = .ok (value, rest)
  tooDeep : ¬ fits → ∃ left, reading = .error (.next .tooDeep left)

namespace Ends

variable {reading : Except Fault (α × List Char)} {fits fits' : Prop} {value : α}
  {rest last : List Char}

theorem of_fits (holds : fits) : Ends (.ok (value, rest)) fits value rest :=
  ⟨fun _ => rfl, fun fails => absurd holds fails⟩

theorem congr (ends : Ends reading fits value rest) (same : fits ↔ fits') :
    Ends reading fits' value rest :=
  ⟨fun holds => ends.found (same.mpr holds), fun fails => ends.tooDeep (mt same.mp fails)⟩

theorem map (f : α → β) (ends : Ends reading fits value rest) :
    Ends (reading.map (Prod.map f id)) fits (f value) rest := by
  constructor
  · intro holds
    rw [ends.found holds]
    rfl
  · intro fails
    obtain ⟨left, tooDeep⟩ := ends.tooDeep fails
    exact ⟨left, by rw [tooDeep]; rfl⟩

/-- Of two readings in a row the second begins where the first ends. -/
theorem bind {next : α × List Char → Except Fault (β × List Char)} {value' : β}
    (first : Ends reading fits value rest) (second : Ends (next (value, rest)) fits' value' last) :
    Ends (reading.bind next) (fits ∧ fits') value' last := by
  by_cases holds : fits
  · rw [first.found holds]
    exact second.congr (by simp [holds])
  · obtain ⟨left, tooDeep⟩ := first.tooDeep holds
    rw [tooDeep]
    exact ⟨fun both => absurd both.1 holds, fun _ => ⟨left, rfl⟩⟩

end Ends

/-- From the compact form of the value, before anything that a number cannot go on with, the reader
recovers the result, unless the value is nested more deeply than the given depth. -/
structure Recovers (depth : Nat) (reader : Reader α) (value : Value) (result : α) : Prop where
  integral : value.Integral
  ends : ∀ rest, Delimited rest →
    Ends (reader.run (value.compact ++ rest)) (value.depth ≤ depth) result rest

namespace Recovers

variable {depth : Nat} {reader : Reader α} {value : Value} {result : α}

theorem map (f : α → β) (recovers : Recovers depth reader value result) :
    Recovers depth (reader.map f) value (f result) where
  integral := recovers.integral
  ends rest delimited := by
    rw [run_map]
    exact (recovers.ends rest delimited).map f

/-- Where a reader recovers a value, one that also takes `null` does so too. -/
theorem nullable (recovers : Recovers depth reader value result) (present : value ≠ .null) :
    Recovers depth (readNullable reader) value (some result) where
  integral := recovers.integral
  ends rest delimited := by
    obtain ⟨c, text, compact, solid, -, other⟩ := recovers.integral.opens
    -- the value does not begin like `null`, so the reader itself is asked
    have read : (readNullable reader).run (value.compact ++ rest)
        = (reader.run (value.compact ++ rest)).map (Prod.map some id) := by
      rw [compact]
      exact run_readNullable reader (text ++ rest) solid (other present)
    rw [read]
    exact (recovers.ends rest delimited).map some

/-- Where no list or object may open, one is refused at its opening character. -/
theorem shut {opening : Char} {opened : List Char} (integral : value.Integral)
    (nested : 0 < value.depth) (begins : value.compact = opening :: opened)
    (refused : ∀ text, reader.run (opening :: text) = .error (.next .tooDeep (opening :: text))) :
    Recovers 0 reader value result where
  integral := integral
  ends rest _ := by
    rw [begins, List.cons_append, refused]
    exact ⟨fun shallow => absurd nested (Nat.not_lt.mpr shallow), fun _ => ⟨_, rfl⟩⟩

theorem of_run {reader' : Reader α} {opening : Char} {opened : List Char}
    (recovers : Recovers depth reader value result) (begins : value.compact = opening :: opened)
    (same : ∀ text, reader'.run (opening :: text) = reader.run (opening :: text)) :
    Recovers depth reader' value result where
  integral := recovers.integral
  ends rest delimited := by
    have ends := recovers.ends rest delimited
    rw [begins, List.cons_append] at ends ⊢
    rw [same]
    exact ends

/-- What is neither a list nor an object is recovered at any depth. -/
theorem scalar (integral : value.Integral) (flat : value.depth = 0)
    (read : ∀ rest, Delimited rest → reader.run (value.compact ++ rest) = .ok (result, rest)) :
    Recovers depth reader value result where
  integral := integral
  ends rest delimited :=
    ⟨fun _ => read rest delimited, fun deep => absurd (flat ▸ Nat.zero_le depth) deep⟩

theorem nullable_null (depth : Nat) (reader : Reader α) :
    Recovers depth (readNullable reader) .null none := by
  refine scalar .null rfl fun rest _ => ?_
  rw [Value.compact, readNullable, run_afterBlank]
  exact run_readWord 'n' "ull" none rest

theorem text (depth : Nat) (text : String) : Recovers depth readText (.string text) text := by
  refine scalar (.string text) rfl fun rest _ => ?_
  rw [Value.compact, run_readText]

theorem unsigned (depth : Nat) (n : UInt64) (lower upper) :
    Recovers depth readUnsigned (.number (.integer n.toNat lower upper)) n := by
  refine scalar (.integer _ lower upper) rfl fun rest delimited => ?_
  obtain ⟨c, text, rendered, opening⟩ := head_render n.toNat lower upper
  have number := run_readNumber n.toNat lower upper delimited
  rw [rendered] at number
  obtain ⟨shorter, number⟩ := eq_of_run number
  rw [Value.compact, rendered, List.cons_append, readUnsigned, run_afterBlank,
    skipBlank_cons _ (solid_of_number opening), Reader.run,
    if_pos (startsNumber_cons _ opening)]
  simp only [← List.cons_append, number]
  -- the number is a word already, so it is not refused as negative
  rw [if_neg (by omega)]
  simp [Except.map]

/-! ### Lists -/

theorem delimited_compactElements (elements : List Value) (rest : List Char) :
    Delimited (Value.compactElements elements ++ rest) := by
  cases elements with
  | nil =>
    rintro c ⟨⟩
    decide
  | cons element elements =>
    rw [Value.compactElements]
    rintro c ⟨⟩
    decide

section

variable {item : Reader α} {values : List Value} {results : List α}

theorem ends_close (first : Bool) (rest : List Char) :
    Ends (Reader.run (readElements item first) (']' :: rest)) (0 ≤ depth) [] rest := by
  obtain ⟨shorter, close⟩ := nextElement_close first (skipBlank_cons rest (c := ']') rfl)
  rw [run_readElements, close]
  exact .of_fits (Nat.zero_le depth)

/-- An element and those after it, whether it is the first one or stands after a comma. -/
theorem ends_element {first : Bool} {text rest : List Char} {left : Remainder text}
    {others : List Value} (recovers : Recovers depth item value result)
    (next : nextElement first text = .ok (.element left))
    (begins : left.val = value.compact ++ (Value.compactElements others ++ rest))
    (ends : Ends (Reader.run (readElements item false) (Value.compactElements others ++ rest))
      (Value.depthElements others ≤ depth) results rest) :
    Ends (Reader.run (readElements item first) text)
      (Value.depthElements (value :: others) ≤ depth) (result :: results) rest := by
  rw [run_readElements, next]
  simp only [begins]
  exact ((recovers.ends _ (delimited_compactElements others rest)).bind
    (ends.map (result :: ·))).congr Nat.max_le.symm

theorem ends_elements (recover : List.Forall₂ (Recovers depth item) values results)
    (rest : List Char) :
    Ends (Reader.run (readElements item false) (Value.compactElements values ++ rest))
      (Value.depthElements values ≤ depth) results rest := by
  induction recover with
  | nil => exact ends_close false rest
  | @cons value result values results recovers _ ih =>
    obtain ⟨c, text, compact, solid, unclosed, -⟩ := recovers.integral.opens
    have skipped : skipBlank (value.compact ++ (Value.compactElements values ++ rest))
        = c :: (text ++ (Value.compactElements values ++ rest)) := by
      rw [compact]
      exact skipBlank_cons _ solid
    obtain ⟨le, next⟩ := nextElement_comma (skipBlank_cons _ (c := ',') rfl) skipped unclosed
    rw [Value.compactElements, List.cons_append, List.append_assoc]
    exact ends_element recovers next rfl ih

/-- A list is recovered when its elements are, one level further in. -/
theorem list (recover : List.Forall₂ (Recovers depth item) values results) :
    Recovers (depth + 1) (readList (some item)) (.array values) results where
  integral := by
    refine .array ?_
    induction recover with
    | nil => simp
    | cons recovers _ ih => exact List.forall_mem_cons.mpr ⟨recovers.integral, ih⟩
  ends rest delimited := by
    refine Ends.congr ?_ Value.depth_array_le.symm
    cases recover with
    | nil =>
      rw [Value.compact, List.cons_append, run_readList_some]
      exact ends_close true rest
    | @cons value result values results recovers others =>
      obtain ⟨c, text, compact, solid, unclosed, -⟩ := recovers.integral.opens
      have next : nextElement true (value.compact ++ (Value.compactElements values ++ rest))
          = .ok (.element (.all _)) := by
        rw [compact]
        exact nextElement_first (skipBlank_cons _ solid) unclosed
      rw [Value.compact, List.cons_append, run_readList_some, List.append_assoc]
      exact ends_element recovers next rfl (ends_elements others rest)

/-- A list whose elements are recovered by a reader that takes the depth that is left. -/
theorem list_within {read : Nat → Reader α} {written : β → Value} {result : β → α} (parts : List β)
    (recover : ∀ depth, ∀ part ∈ parts,
      Recovers depth (read depth) (written part) (result part)) :
    Recovers depth (readList (within read depth)) (.array (parts.map written))
      (parts.map result) := by
  have parted (depth : Nat) : List.Forall₂ (Recovers depth (read depth)) (parts.map written)
      (parts.map result) := by
    rw [List.forall₂_map_left_iff, List.forall₂_map_right_iff, List.forall₂_same]
    exact recover depth
  cases depth with
  | zero =>
    obtain ⟨text, opened⟩ := Value.compact_array (parts.map written)
    exact .shut (list (parted 0)).integral (by rw [Value.depth]; exact Nat.succ_pos _) opened
      run_readList_none
  | succ depth => exact list (parted depth)

end

end Recovers

/-! ### Objects -/

/-- The members move the state on, one by one, by readers that recover their values. It is left open
which reader is accepted for a key in a state. -/
inductive Folds (accepts : σ → String → Reader σ → Prop) (depth : Nat) :
    σ → List (String × Value) → σ → Prop
  | nil {state : σ} : Folds accepts depth state [] state
  | cons {state next last : σ} {key : String} {value : Value} {members : List (String × Value)}
    {reader : Reader σ} :
    accepts state key reader → Recovers depth reader value next →
      Folds accepts depth next members last →
        Folds accepts depth state ((key, value) :: members) last

namespace Folds

variable {accepts : σ → String → Reader σ → Prop} {depth : Nat} {state next last : σ}
  {members : List (String × Value)}

theorem integral (folds : Folds accepts depth state members last) :
    (Value.object members).Integral := by
  refine .object ?_
  induction folds with
  | nil => simp
  | cons _ recovers _ ih => exact List.forall_mem_cons.mpr ⟨recovers.integral, ih⟩

theorem delimited_compactMembers (members : List (String × Value)) (rest : List Char) :
    Delimited (Value.compactMembers members ++ rest) := by
  cases members with
  | nil =>
    rintro c ⟨⟩
    decide
  | cons member members =>
    rw [Value.compactMembers]
    rintro c ⟨⟩
    decide

variable {member : MemberFold σ}
  (known : ∀ state key reader, accepts state key reader → member state key = .ok reader)

include known

/-- A member is recovered with its value, and the reading goes on with what follows it. -/
theorem ends_member {key : String} {value : Value} {reader : Reader σ} {after rest : List Char}
    {fits : Prop} {further : Except Fault (σ × List Char)} (accepted : accepts state key reader)
    (recovers : Recovers depth reader value next) (delimited : Delimited after)
    (goesOn : (afterColon reader).run (':' :: (value.compact ++ after)) = .ok (next, after) →
      Reader.run (readMembers member state)
        (key.toList.flatMap writeChar ++ '"' :: ':' :: (value.compact ++ after)) = further)
    (ends : Ends further fits last rest) :
    Ends (Reader.run (readMembers member state)
        (key.toList.flatMap writeChar ++ '"' :: ':' :: (value.compact ++ after)))
      (value.depth ≤ depth ∧ fits) last rest := by
  have read := run_afterColon reader (value.compact ++ after)
  -- a value that is too deep ends the reading at this member, whatever follows it
  by_cases shallow : value.depth ≤ depth
  · rw [goesOn (read.trans ((recovers.ends after delimited).found shallow))]
    exact ends.congr (by simp [shallow])
  · obtain ⟨left, tooDeep⟩ := (recovers.ends after delimited).tooDeep shallow
    refine ⟨fun both => absurd both.1 shallow, fun _ => ⟨left, ?_⟩⟩
    exact run_readMembers_error (run_readQuoted key _) (known _ _ _ accepted) (read.trans tooDeep)

/-- A member and those after it, from the inside of its key on. -/
theorem ends_members {key : String} {value : Value} {reader : Reader σ}
    (accepted : accepts state key reader) (recovers : Recovers depth reader value next)
    (folds : Folds accepts depth next members last) (rest : List Char) :
    Ends (Reader.run (readMembers member state) (key.toList.flatMap writeChar ++ '"' :: ':' ::
        (value.compact ++ (Value.compactMembers members ++ rest))))
      (max value.depth (Value.depthMembers members) ≤ depth) last rest := by
  have delimited := delimited_compactMembers members rest
  refine Ends.congr ?_ Nat.max_le.symm
  -- the reader of a member goes on in the key of the next, so the induction is on those that follow
  induction folds generalizing state key value reader with
  | nil =>
    refine ends_member known accepted recovers delimited
      (run_readMembers_last (run_readQuoted key _) (known _ _ _ accepted)) ?_
    exact .of_fits (Nat.zero_le depth)
  | @cons _ _ _ key' value' members' reader' accepted' recovers' folds ih =>
    refine ends_member known accepted recovers delimited ?_
      ((ih accepted' recovers' (delimited_compactMembers members' rest)).congr Nat.max_le.symm)
    intro read
    refine run_readMembers_next (run_readQuoted key _) (known _ _ _ accepted) (read.trans ?_)
    simp [Value.compactMembers, writeString]

/-- An object without its opening brace. -/
theorem ends_object (folds : Folds accepts depth state members last) (rest : List Char) :
    ∃ text, (Value.object members).compact ++ rest = '\x7b' :: text ∧
      Ends ((readObject member state).run text) (Value.depthMembers members ≤ depth) last rest := by
  cases folds with
  | nil =>
    refine ⟨'\x7d' :: rest, by rw [Value.compact]; rfl, ?_⟩
    rw [run_readObject_nil]
    exact .of_fits (Nat.zero_le depth)
  | @cons _ _ _ key value members reader accepted recovers folds =>
    refine ⟨'"' :: (key.toList.flatMap writeChar ++ '"' :: ':' ::
        (value.compact ++ (Value.compactMembers members ++ rest))), ?_, ?_⟩
    · simp [Value.compact, writeString]
    · rw [run_readObject_cons]
      exact ends_members known accepted recovers folds rest

end Folds

/-! ### Documents -/

namespace Recovers

variable {depth : Nat} {reader : Reader α} {value : Value} {result : α}
  (recovers : Recovers depth reader value result)

include recovers

theorem ends_document :
    Ends (reader.run (String.ofList value.compact).toList) (value.depth ≤ depth) result [] := by
  have ends := recovers.ends [] (by simp [Delimited])
  rw [List.append_nil] at ends
  rwa [String.toList_ofList]

theorem decode (shallow : value.depth ≤ depth) :
    Json.decode reader (String.ofList value.compact) = .ok result :=
  decode_of_run (recovers.ends_document.found shallow)

theorem decode_tooDeep (deep : depth < value.depth) :
    ∃ place, Json.decode reader (String.ofList value.compact) = .error ⟨.tooDeep, place⟩ := by
  obtain ⟨left, tooDeep⟩ := recovers.ends_document.tooDeep (Nat.not_le.mpr deep)
  exact ⟨_, decode_of_run_error tooDeep⟩

end Recovers

end DeployGate.Json
