import DeployGate.Proofs.Json.Phrases

/-!
# Skipping values

The value of an undeclared key is skipped by a parser of its own, which keeps no value and nests
without limit. It drops exactly one value of the grammar, whichever that is, and nothing else.
-/

namespace DeployGate.Json

/-! ### What is left -/

/-- What is left when a value and everything that is open around it have been skipped. -/
def leftNested (nest : List Bracket) (text : List Char) : Except Fault (List Char) :=
  (skipNested nest text).map (·.rest)

def leftMember (nest : List Bracket) (text : List Char) : Except Fault (List Char) :=
  (skipMember nest text).map (·.rest)

def leftAfter (nest : List Bracket) (text : List Char) : Except Fault (List Char) :=
  (skipAfter nest text).map (·.val)

/-- What is left when the colon behind a key and its value have been skipped as well. -/
def leftEntry (nest : List Bracket) (text : List Char) : Except Fault (List Char) :=
  match skipBlank text with
  | [] => .error (.next .endInObject [])
  | ':' :: value => leftNested (.object :: nest) value
  | other => .error (.next .noColon other)

theorem leftNested_eq (nest : List Bracket) (text : List Char) :
    leftNested nest text = match skipBlank text with
      | [] => .error (.next .endInValue [])
      | '[' :: rest =>
        match skipBlank rest with
        | [] => .error (.next .endInList [])
        | ']' :: after => leftAfter nest after
        | _ => leftNested (.list :: nest) rest
      | '\x7b' :: rest =>
        match skipBlank rest with
        | '\x7d' :: after => leftAfter nest after
        | _ => leftMember nest rest
      | c :: rest => (skipScalar.run (c :: rest)).bind fun found => leftAfter nest found.2 := by
  rw [leftNested, skipNested]
  split
  next skipped => simp only [skipped]; rfl
  next rest skipped =>
    simp only [skipped]
    split
    next skipped' => simp only [skipped']; rfl
    next after skipped' =>
      simp only [skipped', leftAfter]
      cases skipAfter nest after <;> rfl
    next notNil notClose =>
      split
      next skipped' => exact absurd skipped' notNil
      next skipped' => exact absurd skipped' (notClose _)
      next =>
        rw [leftNested]
        cases skipNested (.list :: nest) rest <;> rfl
  next rest skipped =>
    simp only [skipped]
    split
    next after skipped' =>
      simp only [skipped', leftAfter]
      cases skipAfter nest after <;> rfl
    next notClose =>
      split
      next skipped' => exact absurd skipped' (notClose _)
      next =>
        rw [leftMember]
        cases skipMember nest rest <;> rfl
  next c rest noList noObject skipped =>
    simp only [skipped]
    rw [Reader.run]
    cases skipScalar (c :: rest) with
    | error fault => rfl
    | ok found =>
      simp only [Except.map, Except.bind, leftAfter]
      cases skipAfter nest found.rest <;> rfl

theorem leftAfter_nil (text : List Char) : leftAfter [] text = .ok text := by
  rw [leftAfter, skipAfter]
  rfl

theorem leftAfter_list (nest : List Bracket) (text : List Char) :
    leftAfter (.list :: nest) text = match skipBlank text with
      | [] => .error (.next .endInList [])
      | ',' :: rest => leftNested (.list :: nest) rest
      | ']' :: rest => leftAfter nest rest
      | other => .error (.next .noCommaInList other) := by
  rw [leftAfter, skipAfter]
  split
  next skipped => simp only [skipped]; rfl
  next rest skipped =>
    simp only [skipped, leftNested]
    cases skipNested (.list :: nest) rest <;> rfl
  next rest skipped =>
    simp only [skipped, leftAfter]
    cases skipAfter nest rest <;> rfl
  next noNil noComma noClose =>
    split
    next skipped => exact absurd skipped noNil
    next skipped => exact absurd skipped (noComma _)
    next skipped => exact absurd skipped (noClose _)
    next => rfl

theorem leftAfter_object (nest : List Bracket) (text : List Char) :
    leftAfter (.object :: nest) text = match skipBlank text with
      | [] => .error (.next .endInObject [])
      | ',' :: rest => leftMember nest rest
      | '\x7d' :: rest => leftAfter nest rest
      | other => .error (.next .noCommaInObject other) := by
  rw [leftAfter, skipAfter]
  split
  next skipped => simp only [skipped]; rfl
  next rest skipped =>
    simp only [skipped, leftMember]
    cases skipMember nest rest <;> rfl
  next rest skipped =>
    simp only [skipped, leftAfter]
    cases skipAfter nest rest <;> rfl
  next noNil noComma noClose =>
    split
    next skipped => exact absurd skipped noNil
    next skipped => exact absurd skipped (noComma _)
    next skipped => exact absurd skipped (noClose _)
    next => rfl

theorem leftMember_eq (nest : List Bracket) (text : List Char) :
    leftMember nest text = match skipBlank text with
      | [] => .error (.next .endInObject [])
      | '"' :: rest => (Reader.run skipString rest).bind fun found => leftEntry nest found.2
      | other => .error (.next .keyNotString other) := by
  rw [leftMember, skipMember]
  split
  next skipped => simp only [skipped]; rfl
  next rest skipped =>
    simp only [skipped]
    rw [Reader.run]
    cases skipString rest with
    | error fault => rfl
    | ok found =>
      have entry : (Except.ok (found.value, found.rest)).bind (fun found => leftEntry nest found.2)
          = leftEntry nest found.rest := rfl
      refine Eq.trans ?_ entry.symm
      rw [leftEntry]
      simp only
      split
      next skipped' => simp only [skipped']; rfl
      next value skipped' =>
        simp only [skipped', leftNested]
        cases skipNested (.object :: nest) value <;> rfl
      next noNil noColon =>
        split
        next skipped' => exact absurd skipped' noNil
        next skipped' => exact absurd skipped' (noColon _)
        next => rfl
  next noNil noQuote =>
    split
    next skipped => exact absurd skipped noNil
    next skipped => exact absurd skipped (noQuote _)
    next => rfl

/-! ### Values are skipped -/

theorem leftNested_scalar (nest : List Bracket) {c : Char} (text : List Char)
    (solid : isBlank c = false) (noList : c ≠ '[') (noObject : c ≠ '\x7b') :
    leftNested nest (c :: text)
      = (skipScalar.run (c :: text)).bind fun found => leftAfter nest found.2 := by
  rw [leftNested_eq, skipBlank_cons text solid]
  split
  next same => cases same
  next same =>
    cases same
    exact absurd rfl noList
  next same =>
    cases same
    exact absurd rfl noObject
  next same =>
    cases same
    rfl

theorem run_skipScalar_number {literal rest : List Char} (numeral : Numeral literal)
    (delimited : Delimited rest) : skipScalar.run (literal ++ rest) = .ok ((), rest) := by
  have skipped := run_skipNumber numeral delimited
  obtain ⟨c, text, rfl, opening⟩ := numeral.head
  rw [List.cons_append] at skipped ⊢
  rw [Reader.run, skipScalar, if_pos (startsNumber_cons _ opening)]
  · exact skipped
  all_goals
    rintro _ ⟨⟩
    exact ne_of_number opening (by decide) rfl

theorem run_skipScalar_string {units : List Nat} {text : List Char} (letters : Letters units text)
    (rest : List Char) : skipScalar.run ('"' :: (text ++ '"' :: rest)) = .ok ((), rest) := by
  rw [Reader.run, skipScalar]
  exact (map_later _).trans (run_skipString letters rest)

/-- What skipping a phrase leaves to be done, inside the given brackets. -/
def Leaves (nest : List Bracket) (rest : List Char) : Phrase → List Char → Prop
  | .value tree, text => tree.Ends rest → leftNested nest (text ++ rest) = leftAfter nest rest
  | .member _ tree, text =>
    tree.Ends rest → leftMember nest (text ++ rest) = leftAfter (.object :: nest) rest
  | .entry tree, text =>
    tree.Ends rest → leftEntry nest (text ++ rest) = leftAfter (.object :: nest) rest
  | .elements _, text => leftAfter (.list :: nest) (text ++ rest) = leftAfter nest rest
  | .members _, text => leftAfter (.object :: nest) (text ++ rest) = leftAfter nest rest

/-- A blank in front of a phrase makes no difference. -/
theorem Leaves.blank {nest : List Bracket} {phrase : Phrase} {c : Char} {text rest : List Char}
    (blank : isBlank c = true) (leaves : Leaves nest rest phrase text) :
    Leaves nest rest phrase (c :: text) := by
  have skipped : skipBlank (c :: text ++ rest) = skipBlank (text ++ rest) :=
    skipBlank_blank _ blank
  cases phrase with
  | value tree =>
    intro ends
    rw [leftNested_eq, skipped, ← leftNested_eq]
    exact leaves ends
  | member key tree =>
    intro ends
    rw [leftMember_eq, skipped, ← leftMember_eq]
    exact leaves ends
  | entry tree =>
    intro ends
    rw [leftEntry, skipped]
    exact leaves ends
  | elements trees =>
    rw [Leaves, leftAfter_list, skipped, ← leftAfter_list]
    exact leaves
  | members members =>
    rw [Leaves, leftAfter_object, skipped, ← leftAfter_object]
    exact leaves

theorem leftNested_list {nest : List Bracket} {tree : Tree} {text : List Char}
    (spells : Spells (.value tree) text) (rest : List Char) :
    leftNested nest ('[' :: (text ++ rest)) = leftNested (.list :: nest) (text ++ rest) := by
  obtain ⟨c, more, further, solid, skipped⟩ := spells.solid
  have unclosed : c ≠ ']' := (further.opens solid).ne (by decide)
  rw [leftNested_eq, skipBlank_cons _ rfl]
  simp only [skipped]
  split
  next same => cases same
  next same => exact absurd (List.cons.inj same).1 unclosed
  next => rfl

theorem leftNested_emptyList {nest : List Bracket} {text : List Char}
    (spells : Spells (.elements []) text) (rest : List Char) :
    leftNested nest ('[' :: (text ++ rest)) = leftAfter nest rest := by
  obtain ⟨c, more, further, solid, skipped⟩ := spells.solid
  cases further with
  | blank blank => cases blank.symm.trans solid
  | closeArray =>
    rw [leftNested_eq, skipBlank_cons _ rfl]
    simp only [skipped]
    rfl

theorem leftNested_object {nest : List Bracket} {key : List Nat} {tree : Tree} {text : List Char}
    (spells : Spells (.member key tree) text) (rest : List Char) :
    leftNested nest ('\x7b' :: (text ++ rest)) = leftMember nest (text ++ rest) := by
  obtain ⟨c, more, further, solid, skipped⟩ := spells.solid
  cases further with
  | blank blank => cases blank.symm.trans solid
  | member letters entry =>
    rw [leftNested_eq, skipBlank_cons _ rfl]
    simp only [skipped]
    rfl

theorem leftNested_emptyObject {nest : List Bracket} {text : List Char}
    (spells : Spells (.members []) text) (rest : List Char) :
    leftNested nest ('\x7b' :: (text ++ rest)) = leftAfter nest rest := by
  obtain ⟨c, more, further, solid, skipped⟩ := spells.solid
  cases further with
  | blank blank => cases blank.symm.trans solid
  | closeObject =>
    rw [leftNested_eq, skipBlank_cons _ rfl]
    simp only [skipped]
    rfl

theorem leftNested_word (nest : List Bracket) (first : Char) (word : String) {rest : List Char}
    (scalar : skipScalar.run (first :: (word.toList ++ rest))
      = (readWord first word () (word.toList ++ rest)).map fun found => (found.value, found.rest))
    (solid : isBlank first = false) (noList : first ≠ '[') (noObject : first ≠ '\x7b') :
    leftNested nest (first :: (word.toList ++ rest)) = leftAfter nest rest := by
  rw [leftNested_scalar nest _ solid noList noObject, scalar, run_readWord]
  rfl

/-- A phrase is skipped as a whole, whatever follows it. -/
theorem Spells.leaves {phrase : Phrase} {text : List Char} (spells : Spells phrase text) :
    ∀ nest rest, Leaves nest rest phrase text := by
  -- What is open around the phrase stays arbitrary: a list or an object is entered by putting its
  -- bracket onto the nest, and the phrases inside are skipped there.
  induction spells with
  | blank blank _ ih => exact fun nest rest => (ih nest rest).blank blank
  | null =>
    intro nest rest _
    exact leftNested_word nest 'n' "ull" rfl rfl (by decide) (by decide)
  | bool value =>
    intro nest rest _
    cases value with
    | false =>
      exact leftNested_word nest 'f' "alse" rfl rfl (by decide) (by decide)
    | true =>
      exact leftNested_word nest 't' "rue" rfl rfl (by decide) (by decide)
  | number numeral =>
    intro nest rest delimited
    have skipped := run_skipScalar_number numeral delimited
    obtain ⟨c, text, rfl, opening⟩ := numeral.head
    rw [List.cons_append] at skipped ⊢
    rw [leftNested_scalar nest _ (solid_of_number opening) (ne_of_number opening (by decide))
      (ne_of_number opening (by decide)), skipped]
    rfl
  | string letters =>
    intro nest rest _
    rw [List.cons_append, List.append_assoc,
      leftNested_scalar nest _ rfl (by decide) (by decide)]
    exact congrArg (Except.bind · _) (run_skipScalar_string letters rest)
  | emptyArray spells =>
    intro nest rest _
    exact leftNested_emptyList spells rest
  | array first further ih ih' =>
    intro nest rest _
    rw [List.cons_append, List.append_assoc, leftNested_list first]
    -- a comma or the bracket follows the first element, so that a number ends there
    exact (ih _ _ (.of_delimited _ (further.delimited_elements rest))).trans (ih' nest rest)
  | closeArray =>
    intro nest rest
    exact leftAfter_list nest (']' :: rest)
  | element _ further ih ih' =>
    intro nest rest
    rw [Leaves, List.cons_append, List.append_assoc, leftAfter_list, skipBlank_cons _ rfl]
    exact (ih _ _ (.of_delimited _ (further.delimited_elements rest))).trans (ih' nest rest)
  | emptyObject spells =>
    intro nest rest _
    exact leftNested_emptyObject spells rest
  | object first further ih ih' =>
    intro nest rest _
    rw [List.cons_append, List.append_assoc, leftNested_object first]
    exact (ih _ _ (.of_delimited _ (further.delimited_members rest))).trans (ih' nest rest)
  | closeObject =>
    intro nest rest
    exact leftAfter_object nest ('\x7d' :: rest)
  | nextMember _ further ih ih' =>
    intro nest rest
    rw [Leaves, List.cons_append, List.append_assoc, leftAfter_object, skipBlank_cons _ rfl]
    exact (ih _ _ (.of_delimited _ (further.delimited_members rest))).trans (ih' nest rest)
  | @member key tree text entry letters _ ih =>
    intro nest rest ends
    have opened :
        '"' :: (text ++ '"' :: entry) ++ rest = '"' :: (text ++ '"' :: (entry ++ rest)) := by
      simp
    rw [opened, leftMember_eq, skipBlank_cons _ rfl]
    simp only [run_skipString letters]
    exact ih nest rest ends
  | entry _ ih =>
    intro nest rest ends
    rw [List.cons_append, leftEntry, skipBlank_cons _ rfl]
    exact ih _ rest ends

theorem run_skipValue {tree : Tree} {text rest : List Char} (spells : Spells (.value tree) text)
    (ends : tree.Ends rest) : skipValue.run (text ++ rest) = .ok ((), rest) := by
  have left := (spells.leaves [] rest ends).trans (leftAfter_nil rest)
  obtain ⟨found, skipped, same⟩ := map_eq_ok_iff.mp left
  rw [Reader.run, skipValue, skipped]
  exact congrArg (fun rest => Except.ok ((), rest)) same

/-! ### What is skipped is a value -/

section

variable {nest : List Bracket} {text rest last : List Char} {phrase : Phrase}

/-- The phrase is skipped, and then what the given brackets are still open around. -/
def Skips (nest : List Bracket) (phrase : Phrase) (text last : List Char) : Prop :=
  ∃ rest, Begins phrase text rest ∧ leftAfter nest rest = .ok last

/-- Whatever is skipped at the start of the text is a phrase. -/
structure SkipSound (text : List Char) : Prop where
  value : ∀ {nest last}, leftNested nest text = .ok last →
    ∃ tree, Skips nest (.value tree) text last
  member : ∀ {nest last}, leftMember nest text = .ok last →
    ∃ key tree, Skips (.object :: nest) (.member key tree) text last
  elements : ∀ {nest last}, leftAfter (.list :: nest) text = .ok last →
    ∃ trees, Skips nest (.elements trees) text last
  members : ∀ {nest last}, leftAfter (.object :: nest) text = .ok last →
    ∃ members, Skips nest (.members members) text last

theorem begins_of_skipScalar {found : Found Unit text} (read : skipScalar text = .ok found) :
    ∃ tree, Begins (.value tree) text found.rest := by
  rw [skipScalar.eq_def] at read
  split at read
  · exact ⟨.null, begins_of_readWord read .null⟩
  · exact ⟨.bool true, begins_of_readWord read (.bool true)⟩
  · exact ⟨.bool false, begins_of_readWord read (.bool false)⟩
  next rest =>
    obtain ⟨found, skipped, rfl⟩ := map_eq_ok_iff.mp read
    obtain ⟨units, letters, spells, same⟩ := letters_of_skipString skipped
    exact ⟨.string units, _, .string spells, by simp [same]⟩
  · split at read
    · obtain ⟨literal, numeral, same⟩ := numeral_of_skipNumber read
      exact ⟨.number literal, literal, .number numeral, same⟩
    · cases read

/-- The elements after the first one are looked for in what the first one leaves. -/
theorem SkipSound.array (sound : ∀ text', text'.length < text.length → SkipSound text')
    (shorter : rest.length < text.length) (left : leftNested (.list :: nest) rest = .ok last) :
    ∃ tree trees middle mid, Begins (.value tree) rest middle ∧
      Begins (.elements trees) middle mid ∧ leftAfter nest mid = .ok last := by
  obtain ⟨tree, middle, begins, further⟩ := (sound rest shorter).value left
  have := begins.shorter
  obtain ⟨trees, mid, begins', further⟩ := (sound middle (by omega)).elements further
  exact ⟨tree, trees, middle, mid, begins, begins', further⟩

theorem SkipSound.object (sound : ∀ text', text'.length < text.length → SkipSound text')
    (shorter : rest.length < text.length) (left : leftMember nest rest = .ok last) :
    ∃ key tree members middle mid, Begins (.member key tree) rest middle ∧
      Begins (.members members) middle mid ∧ leftAfter nest mid = .ok last := by
  obtain ⟨key, tree, middle, begins, further⟩ := (sound rest shorter).member left
  have := begins.shorter
  obtain ⟨members, mid, begins', further⟩ := (sound middle (by omega)).members further
  exact ⟨key, tree, members, middle, mid, begins, begins', further⟩

theorem skips_value (sound : ∀ text', text'.length < text.length → SkipSound text')
    (left : leftNested nest text = .ok last) : ∃ tree, Skips nest (.value tree) text last := by
  rw [leftNested_eq] at left
  -- the tree and what it leaves are found behind the blanks
  have skips {tree : Tree} {c : Char} {rest mid : List Char} (skipped : skipBlank text = c :: rest)
      (begins : Begins (.value tree) (c :: rest) mid) (further : leftAfter nest mid = .ok last) :
      ∃ tree, Skips nest (.value tree) text last :=
    ⟨tree, mid, .of_skipBlank (skipped ▸ begins), further⟩
  split at left
  next => cases left
  next rest skipped =>
    split at left
    next => cases left
    next after skipped' =>
      exact skips skipped (.emptyArray (.of_skipBlank (skipped' ▸ .closeArray after))) left
    next =>
      obtain ⟨tree, trees, middle, mid, first, others, further⟩ :=
        SkipSound.array sound (length_lt_of_skipBlank skipped) left
      exact skips skipped (first.array others) further
  next rest skipped =>
    split at left
    next after skipped' =>
      exact skips skipped (.emptyObject (.of_skipBlank (skipped' ▸ .closeObject after))) left
    next =>
      obtain ⟨key, tree, members, middle, mid, first, others, further⟩ :=
        SkipSound.object sound (length_lt_of_skipBlank skipped) left
      exact skips skipped (first.object others) further
  next c rest noList noObject skipped =>
    rw [Reader.run] at left
    cases read : skipScalar (c :: rest) with
    | error fault => simp [read, Except.map, Except.bind] at left
    | ok found =>
      rw [read] at left
      obtain ⟨tree, begins⟩ := begins_of_skipScalar read
      exact skips skipped begins left

theorem skips_member (sound : ∀ text', text'.length < text.length → SkipSound text')
    (left : leftMember nest text = .ok last) :
    ∃ key tree, Skips (.object :: nest) (.member key tree) text last := by
  rw [leftMember_eq] at left
  split at left
  next => cases left
  next rest skipped =>
    rw [Reader.run] at left
    cases read : skipString rest with
    | error fault => simp [read, Except.map, Except.bind] at left
    | ok found =>
      rw [read] at left
      obtain ⟨key, letters, spells, same⟩ := letters_of_skipString read
      have shorter := length_lt_of_skipBlank skipped
      have shorter' := found.shorter
      replace left : leftEntry nest found.rest = .ok last := left
      rw [leftEntry] at left
      split at left
      next => cases left
      next value skipped' =>
        have shorter'' := length_lt_of_skipBlank skipped'
        obtain ⟨tree, mid, begins, further⟩ := (sound value (by omega)).value left
        have entry : Begins (.entry tree) found.rest mid := .of_skipBlank (skipped' ▸ begins.entry)
        refine ⟨key, tree, mid, .of_skipBlank ?_, further⟩
        rw [skipped, same]
        exact .member spells entry
      next => cases left
  next => cases left

theorem skips_elements (sound : ∀ text', text'.length < text.length → SkipSound text')
    (left : leftAfter (.list :: nest) text = .ok last) :
    ∃ trees, Skips nest (.elements trees) text last := by
  rw [leftAfter_list] at left
  split at left
  next => cases left
  next rest skipped =>
    obtain ⟨tree, trees, middle, mid, first, others, further⟩ :=
      SkipSound.array sound (length_lt_of_skipBlank skipped) left
    exact ⟨_, mid, .of_skipBlank (skipped ▸ first.element others), further⟩
  next rest skipped => exact ⟨[], rest, .of_skipBlank (skipped ▸ .closeArray rest), left⟩
  next => cases left

theorem skips_members (sound : ∀ text', text'.length < text.length → SkipSound text')
    (left : leftAfter (.object :: nest) text = .ok last) :
    ∃ members, Skips nest (.members members) text last := by
  rw [leftAfter_object] at left
  split at left
  next => cases left
  next rest skipped =>
    obtain ⟨key, tree, members, middle, mid, first, others, further⟩ :=
      SkipSound.object sound (length_lt_of_skipBlank skipped) left
    exact ⟨_, mid, .of_skipBlank (skipped ▸ first.nextMember others), further⟩
  next rest skipped => exact ⟨[], rest, .of_skipBlank (skipped ▸ .closeObject rest), left⟩
  next => cases left

theorem skipSound (text : List Char) : SkipSound text := by
  -- whatever a round skips is shorter than what was left for it
  induction size : text.length using Nat.strongRecOn generalizing text with
  | ind size ih =>
    subst size
    have shorter (text' : List Char) (lt : text'.length < text.length) : SkipSound text' :=
      ih _ lt text' rfl
    exact ⟨skips_value shorter, skips_member shorter, skips_elements shorter, skips_members shorter⟩

theorem begins_of_skipValue {found : Found Unit text} (read : skipValue text = .ok found) :
    ∃ tree, Begins (.value tree) text found.rest := by
  have left : leftNested [] text = .ok found.rest := congrArg (·.map (·.rest)) read
  obtain ⟨tree, rest, begins, same⟩ := (skipSound text).value left
  rw [leftAfter_nil] at same
  cases same
  exact ⟨tree, begins⟩

end

end DeployGate.Json
