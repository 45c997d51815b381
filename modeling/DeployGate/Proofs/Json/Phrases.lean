import DeployGate.Proofs.Json.Numbers

/-!
# Phrases in a text

Where a phrase of the grammar begins in a text and where it ends: the blanks in front of it, its
first character, and what may follow it.
-/

namespace DeployGate.Json

/-! ### Beginnings -/

/-- What a value begins with. -/
def Tree.Opens : Tree → Char → Prop
  | .null, c => c = 'n'
  | .bool value, c => c = if value then 't' else 'f'
  | .number _, c => c = '-' ∨ c.isDigit = true
  | .string _, c => c = '"'
  | .array _, c => c = '['
  | .object _, c => c = '\x7b'

theorem Tree.Opens.ne {tree : Tree} {c d : Char} (opens : tree.Opens c)
    (other : d ∉ ['n', 't', 'f', '"', '[', '\x7b', '-'] ∧ d.isDigit = false) : c ≠ d := by
  obtain ⟨other, noDigit⟩ := other
  rintro rfl
  cases tree with
  | number literal =>
    rcases opens with rfl | numeric
    · exact other (by decide)
    · cases numeric.symm.trans noDigit
  | bool value =>
    cases value <;> exact other (by rw [opens]; decide)
  | _ => exact other (by rw [opens]; decide)

section

variable {tree : Tree} {c : Char}

theorem Tree.Opens.of_quote (opens : tree.Opens '"') : ∃ units, tree = .string units := by
  cases tree with
  | string units => exact ⟨units, rfl⟩
  | bool value => cases value <;> cases opens
  | number literal => rcases opens with opens | opens <;> cases opens
  | _ => cases opens

theorem Tree.Opens.of_bracket (opens : tree.Opens '[') : ∃ trees, tree = .array trees := by
  cases tree with
  | array trees => exact ⟨trees, rfl⟩
  | bool value => cases value <;> cases opens
  | number literal => rcases opens with opens | opens <;> cases opens
  | _ => cases opens

theorem Tree.Opens.of_brace (opens : tree.Opens '\x7b') : ∃ members, tree = .object members := by
  cases tree with
  | object members => exact ⟨members, rfl⟩
  | bool value => cases value <;> cases opens
  | number literal => rcases opens with opens | opens <;> cases opens
  | _ => cases opens

theorem Tree.Opens.of_n (opens : tree.Opens 'n') : tree = .null := by
  cases tree with
  | null => rfl
  | bool value => cases value <;> cases opens
  | number literal => rcases opens with opens | opens <;> cases opens
  | _ => cases opens

theorem Tree.Opens.of_number (opens : tree.Opens c) (opening : c = '-' ∨ c.isDigit = true) :
    ∃ literal, tree = .number literal := by
  cases tree with
  | number literal => exact ⟨literal, rfl⟩
  | bool value => cases value <;> exact absurd opens (ne_of_number opening (by decide))
  | _ => exact absurd opens (ne_of_number opening (by decide))

end

theorem skipBlank_blank {c : Char} (text : List Char) (blank : isBlank c = true) :
    skipBlank (c :: text) = skipBlank text :=
  List.dropWhile_cons_of_pos blank

theorem Numeral.head {text : List Char} (numeral : Numeral text) :
    ∃ c more, text = c :: more ∧ (c = '-' ∨ c.isDigit = true) := by
  cases numeral with
  | positive magnitude =>
    obtain ⟨c, more, same, numeric⟩ := magnitude.head
    exact ⟨c, more, same, .inr numeric⟩
  | @negative text _ => exact ⟨'-', text, rfl, .inl rfl⟩

theorem startsNumber_head {c : Char} {rest : List Char} (starts : startsNumber (c :: rest) = true) :
    c = '-' ∨ c.isDigit = true := by
  rw [startsNumber.eq_def] at starts
  split at starts
  next same => exact .inl (List.cons.inj same).1
  next same => exact .inr ((List.cons.inj same).1 ▸ starts)
  next same => cases same

/-- Behind its blanks a phrase is the same phrase. -/
theorem Spells.solid {phrase : Phrase} {text : List Char} (spells : Spells phrase text) :
    ∃ c more, Spells phrase (c :: more) ∧ isBlank c = false ∧
      ∀ rest, skipBlank (text ++ rest) = c :: (more ++ rest) := by
  have solid {c : Char} {more : List Char} (spells : Spells phrase (c :: more))
      (solid : isBlank c = false) : ∃ d more', Spells phrase (d :: more') ∧ isBlank d = false ∧
        ∀ rest, skipBlank (c :: more ++ rest) = d :: (more' ++ rest) :=
    ⟨c, more, spells, solid, fun rest => skipBlank_cons _ solid⟩
  induction spells with
  | blank blank _ ih =>
    obtain ⟨c, more, spells, solid, skipped⟩ := ih solid
    exact ⟨c, more, spells, solid, fun rest => (skipBlank_blank _ blank).trans (skipped rest)⟩
  | number numeral =>
    obtain ⟨c, more, rfl, opening⟩ := numeral.head
    exact solid (.number numeral) (solid_of_number opening)
  | bool value =>
    cases value with
    | false => exact solid (.bool false) rfl
    | true => exact solid (.bool true) rfl
  | null => exact solid .null rfl
  | string letters => exact solid (.string letters) rfl
  | emptyArray more => exact solid (.emptyArray more) rfl
  | array first more => exact solid (.array first more) rfl
  | closeArray => exact solid .closeArray rfl
  | element first more => exact solid (.element first more) rfl
  | emptyObject more => exact solid (.emptyObject more) rfl
  | object first more => exact solid (.object first more) rfl
  | closeObject => exact solid .closeObject rfl
  | nextMember first more => exact solid (.nextMember first more) rfl
  | member letters entry => exact solid (.member letters entry) rfl
  | entry value => exact solid (.entry value) rfl

theorem Spells.opens {tree : Tree} {c : Char} {text : List Char}
    (spells : Spells (.value tree) (c :: text)) (solid : isBlank c = false) : tree.Opens c := by
  generalize spelled : c :: text = whole at spells
  cases spells with
  | blank blank =>
    cases spelled
    cases blank.symm.trans solid
  | number numeral =>
    obtain ⟨d, more, rfl, opening⟩ := numeral.head
    cases spelled
    exact opening
  | bool value => cases value <;> exact (List.cons.inj spelled).1
  | _ => exact (List.cons.inj spelled).1

/-- The phrase stands at the start of the text and leaves the rest. -/
def Begins (phrase : Phrase) (text rest : List Char) : Prop :=
  ∃ spelled, Spells phrase spelled ∧ text = spelled ++ rest

namespace Begins

variable {tree : Tree} {trees : List Tree} {key : List Nat} {members : List (List Nat × Tree)}
  {letters text rest last : List Char}

theorem of_skipBlank {phrase : Phrase} (begins : Begins phrase (skipBlank text) rest) :
    Begins phrase text rest := by
  induction text with
  | nil => exact begins
  | cons c text ih =>
    by_cases blank : isBlank c = true
    · rw [skipBlank_blank text blank] at begins
      obtain ⟨spelled, spells, rfl⟩ := ih begins
      exact ⟨c :: spelled, .blank blank spells, rfl⟩
    · rwa [skipBlank_cons text (by simpa using blank)] at begins

theorem shorter {phrase : Phrase} (begins : Begins phrase text rest) :
    rest.length < text.length := by
  obtain ⟨spelled, spells, rfl⟩ := begins
  have nonempty : spelled ≠ [] := by
    rintro rfl
    obtain ⟨c, more, -, -, skipped⟩ := spells.solid
    cases skipped []
  have := List.length_pos_iff.mpr nonempty
  rw [List.length_append]
  omega

theorem closeArray (rest : List Char) : Begins (.elements []) (']' :: rest) rest :=
  ⟨[']'], .closeArray, rfl⟩

theorem closeObject (rest : List Char) : Begins (.members []) ('\x7d' :: rest) rest :=
  ⟨['\x7d'], .closeObject, rfl⟩

theorem emptyArray (ends : Begins (.elements []) text rest) :
    Begins (.value (.array [])) ('[' :: text) rest := by
  obtain ⟨spelled, spells, rfl⟩ := ends
  exact ⟨_, .emptyArray spells, rfl⟩

theorem emptyObject (ends : Begins (.members []) text rest) :
    Begins (.value (.object [])) ('\x7b' :: text) rest := by
  obtain ⟨spelled, spells, rfl⟩ := ends
  exact ⟨_, .emptyObject spells, rfl⟩

theorem array (first : Begins (.value tree) text rest)
    (others : Begins (.elements trees) rest last) :
    Begins (.value (.array (tree :: trees))) ('[' :: text) last := by
  obtain ⟨spelled, spells, rfl⟩ := first
  obtain ⟨further, spells', rfl⟩ := others
  exact ⟨_, .array spells spells', by simp⟩

theorem element (first : Begins (.value tree) text rest)
    (others : Begins (.elements trees) rest last) :
    Begins (.elements (tree :: trees)) (',' :: text) last := by
  obtain ⟨spelled, spells, rfl⟩ := first
  obtain ⟨further, spells', rfl⟩ := others
  exact ⟨_, .element spells spells', by simp⟩

theorem object (first : Begins (.member key tree) text rest)
    (others : Begins (.members members) rest last) :
    Begins (.value (.object ((key, tree) :: members))) ('\x7b' :: text) last := by
  obtain ⟨spelled, spells, rfl⟩ := first
  obtain ⟨further, spells', rfl⟩ := others
  exact ⟨_, .object spells spells', by simp⟩

theorem nextMember (first : Begins (.member key tree) text rest)
    (others : Begins (.members members) rest last) :
    Begins (.members ((key, tree) :: members)) (',' :: text) last := by
  obtain ⟨spelled, spells, rfl⟩ := first
  obtain ⟨further, spells', rfl⟩ := others
  exact ⟨_, .nextMember spells spells', by simp⟩

theorem member (spells : Letters key letters) (entry : Begins (.entry tree) text rest) :
    Begins (.member key tree) ('"' :: (letters ++ '"' :: text)) rest := by
  obtain ⟨spelled, spells', rfl⟩ := entry
  exact ⟨_, .member spells spells', by simp⟩

theorem entry (value : Begins (.value tree) text rest) :
    Begins (.entry tree) (':' :: text) rest := by
  obtain ⟨spelled, spells, rfl⟩ := value
  exact ⟨_, .entry spells, rfl⟩

end Begins

/-! ### Words -/

theorem eq_append_of_dropWord {word text rest : List Char}
    (dropped : dropWord word text = .ok rest) :
    text = word ++ rest := by
  induction word generalizing text with
  | nil =>
    cases dropped
    rfl
  | cons letter word ih =>
    cases text with
    | nil => cases dropped
    | cons c text =>
      rw [dropWord] at dropped
      split at dropped
      next same => rw [same, ih dropped, List.cons_append]
      next => cases dropped

theorem begins_of_readWord {α : Type} {tree : Tree} {first : Char} {word : String} {value : α}
    {rest : List Char} {found : Found α (first :: rest)}
    (read : readWord first word value rest = .ok found)
    (spells : Spells (.value tree) (first :: word.toList)) :
    Begins (.value tree) (first :: rest) found.rest := by
  rw [readWord] at read
  split at read
  next after dropped =>
    cases read
    exact ⟨_, spells, congrArg (first :: ·) (eq_append_of_dropWord dropped)⟩
  next => cases read

/-! ### Ends -/

/-- A number goes on as long as it can, so what follows it must not be a part of it. Every other
value ends of itself. -/
def Tree.Ends : Tree → List Char → Prop
  | .number _, rest => Delimited rest
  | _, _ => True

theorem Tree.Ends.of_delimited {rest : List Char} (tree : Tree) (delimited : Delimited rest) :
    tree.Ends rest := by
  cases tree with
  | number literal => exact delimited
  | _ => trivial

theorem delimited_blank {c : Char} (text : List Char) (blank : isBlank c = true) :
    Delimited (c :: text) := by
  rintro _ ⟨⟩
  simp only [isBlank, Bool.or_eq_true, decide_eq_true_eq] at blank
  rcases blank with ((rfl | rfl) | rfl) | rfl <;> decide

theorem Spells.delimited_elements {trees : List Tree} {text : List Char}
    (spells : Spells (.elements trees) text) (rest : List Char) : Delimited (text ++ rest) := by
  cases spells with
  | blank blank => exact delimited_blank _ blank
  | closeArray | element =>
    rintro _ ⟨⟩
    decide

theorem Spells.delimited_members {members : List (List Nat × Tree)} {text : List Char}
    (spells : Spells (.members members) text) (rest : List Char) : Delimited (text ++ rest) := by
  cases spells with
  | blank blank => exact delimited_blank _ blank
  | closeObject | nextMember =>
    rintro _ ⟨⟩
    decide

end DeployGate.Json
