import DeployGate.Proofs.Plan.Normal
import Mathlib.Data.List.Forall2

/-!
# Names of diff types

A text says a known type when it is the name of that type but for the case of its ASCII letters.
Nothing is cut off its ends and no other letters are folded, so every other text is kept as it is.

## Main result

`ofString_exact`: which text says which type, what text a type has, and where the one undoes the
other. Whether a text is looked at or handed over, it says the same, and all ways to write a type
agree.
-/

namespace DeployGate.Plan.DiffType

/-! ### Letters -/

/-- The characters are the same, or the two cases of one of the letters from `A` to `Z`. -/
inductive SameLetter (c d : Char) : Prop
  | same : c = d → SameLetter c d
  | lowered : 'A' ≤ c → c ≤ 'Z' → d.toNat = c.toNat + 32 → SameLetter c d
  | raised : 'A' ≤ d → d ≤ 'Z' → c.toNat = d.toNat + 32 → SameLetter c d

theorem capital_iff {c : Char} : ('A' ≤ c ∧ c ≤ 'Z') ↔ 65 ≤ c.toNat ∧ c.toNat ≤ 90 := by
  simp only [Char.le_def, UInt32.le_iff_toNat_le, Char.toNat_val]
  rfl

theorem sameLetter_iff {c d : Char} :
    SameLetter c d ↔ c.toNat = d.toNat ∨
      (65 ≤ c.toNat ∧ c.toNat ≤ 90 ∧ d.toNat = c.toNat + 32) ∨
      (65 ≤ d.toNat ∧ d.toNat ≤ 90 ∧ c.toNat = d.toNat + 32) := by
  constructor
  · intro alike
    cases alike with
    | same same => exact .inl (congrArg Char.toNat same)
    | lowered first last shift =>
      obtain ⟨first, last⟩ := capital_iff.mp ⟨first, last⟩
      exact .inr (.inl ⟨first, last, shift⟩)
    | raised first last shift =>
      obtain ⟨first, last⟩ := capital_iff.mp ⟨first, last⟩
      exact .inr (.inr ⟨first, last, shift⟩)
  · rintro (same | ⟨first, last, shift⟩ | ⟨first, last, shift⟩)
    · exact .same (Char.toNat_inj.mp same)
    · obtain ⟨first, last⟩ := capital_iff.mpr ⟨first, last⟩
      exact .lowered first last shift
    · obtain ⟨first, last⟩ := capital_iff.mpr ⟨first, last⟩
      exact .raised first last shift

theorem toNat_toLower (c : Char) :
    c.toLower.toNat = if 65 ≤ c.toNat ∧ c.toNat ≤ 90 then c.toNat + 32 else c.toNat := by
  have capital : (c.val ≥ 'A'.val ∧ c.val ≤ 'Z'.val) ↔ 65 ≤ c.toNat ∧ c.toNat ≤ 90 := capital_iff
  delta Char.toLower
  split_ifs with isCapital small small
  · have shift : ('a'.val - 'A'.val).toNat = 32 := by decide
    change (c.val + ('a'.val - 'A'.val)).toNat = _
    rw [UInt32.toNat_add, shift, Char.toNat_val]
    omega
  · exact absurd (capital.mp isCapital) small
  · exact absurd (capital.mpr small) isCapital
  · rfl

theorem toNat_toUpper (c : Char) :
    c.toUpper.toNat = if 97 ≤ c.toNat ∧ c.toNat ≤ 122 then c.toNat - 32 else c.toNat := by
  have small : ('a'.val ≤ c.val ∧ c.val ≤ 'z'.val) ↔ 97 ≤ c.toNat ∧ c.toNat ≤ 122 := by
    simp only [UInt32.le_iff_toNat_le, Char.toNat_val]
    rfl
  delta Char.toUpper
  split_ifs with isSmall number number
  · have shift : ('A'.val - 'a'.val).toNat = 2 ^ 32 - 32 := by decide
    change (c.val + ('A'.val - 'a'.val)).toNat = _
    rw [UInt32.toNat_add, shift, Char.toNat_val]
    omega
  · exact absurd (small.mp isSmall) number
  · exact absurd (small.mpr number) isSmall
  · rfl

theorem toLower_eq_iff {c d : Char} : c.toLower = d.toLower ↔ SameLetter c d := by
  rw [← Char.toNat_inj, toNat_toLower, toNat_toLower, sameLetter_iff]
  split <;> split <;> omega

theorem eq_case_iff {c d : Char} : d = c.toUpper ∨ d = c.toLower ↔ SameLetter c d := by
  rw [← Char.toNat_inj, ← Char.toNat_inj, toNat_toLower, toNat_toUpper, sameLetter_iff]
  split <;> split <;> omega

/-! ### Texts -/

/-- The text is as long as the name, and each of its characters is the letter of the name at that
place in one of its cases. -/
structure Recases (name text : String) : Prop where
  length : text.length = name.length
  letter : ∀ (i : Nat) (c d : Char), name.toList[i]? = some c → text.toList[i]? = some d →
    SameLetter c d

theorem recases_iff {name text : String} :
    Recases name text ↔ List.Forall₂ SameLetter name.toList text.toList := by
  rw [List.forall₂_iff_get]
  constructor
  · intro recases
    refine ⟨?_, fun i inside inside' => ?_⟩
    · rw [String.length_toList, String.length_toList, recases.length]
    · exact recases.letter i _ _ (List.getElem?_eq_getElem inside)
        (List.getElem?_eq_getElem inside')
  · rintro ⟨length, letter⟩
    rw [String.length_toList, String.length_toList] at length
    refine ⟨length.symm, fun i c d found found' => ?_⟩
    obtain ⟨inside, rfl⟩ := List.getElem?_eq_some_iff.mp found
    obtain ⟨inside', rfl⟩ := List.getElem?_eq_some_iff.mp found'
    exact letter i inside inside'

theorem sameIgnoringCase_iff {name text : String} :
    sameIgnoringCase name text = true ↔ Recases name text := by
  have letters : SameLetter = fun c d => c.toLower = d.toLower := by
    funext c d
    exact propext toLower_eq_iff.symm
  rw [recases_iff, sameIgnoringCase, beq_iff_eq, letters, ← List.forall₂_eq_eq_eq,
    List.forall₂_map_left_iff, List.forall₂_map_right_iff]

/-- The words that are a word in some case of each of its letters. -/
def spellings : List Char → List (List Char)
  | [] => [[]]
  | c :: word => [c.toUpper, c.toLower].flatMap fun d => (spellings word).map (d :: ·)

theorem mem_spellings {word text : List Char} :
    text ∈ spellings word ↔ List.Forall₂ SameLetter word text := by
  induction word generalizing text with
  | nil => simp [spellings]
  | cons c word ih =>
    rw [List.forall₂_cons_left_iff]
    simp only [spellings, List.mem_flatMap, List.mem_cons, List.not_mem_nil, or_false, eq_case_iff,
      List.mem_map, ih]
    constructor
    · rintro ⟨d, alike, text, further, rfl⟩
      exact ⟨d, text, alike, further, rfl⟩
    · rintro ⟨d, text, alike, further, rfl⟩
      exact ⟨d, alike, text, further, rfl⟩

/-! ### Names -/

/-- The known types and their names. -/
inductive Named : DiffType → String → Prop
  | added : Named added "Added"
  | deleted : Named deleted "Deleted"
  | edited : Named edited "Edited"
  | none : Named none "None"

theorem named_iff {type : DiffType} {name : String} : Named type name ↔ (name, type) ∈ known := by
  simp only [known, List.mem_cons, Prod.mk.injEq, List.not_mem_nil, or_false]
  constructor
  · intro named
    cases named <;> simp
  · rintro (⟨rfl, rfl⟩ | ⟨rfl, rfl⟩ | ⟨rfl, rfl⟩ | ⟨rfl, rfl⟩)
    exacts [.added, .deleted, .edited, .none]

theorem Named.toString_eq {type : DiffType} {name : String} (named : Named type name) :
    type.toString = name := by
  cases named <;> rfl

theorem Named.recognized {type : DiffType} {name : String} (named : Named type name)
    (raw : String) : type ≠ unrecognized raw := by
  cases named <;> simp

theorem Named.unique {type type' : DiffType} {name name' raw : String} (named : Named type name)
    (named' : Named type' name') (recases : Recases name raw) (recases' : Recases name' raw) :
    type = type' ∧ name = name' := by
  have same : name.toList.map Char.toLower = name'.toList.map Char.toLower := by
    have first := beq_iff_eq.mp (sameIgnoringCase_iff.mpr recases)
    have second := beq_iff_eq.mp (sameIgnoringCase_iff.mpr recases')
    exact first.trans second.symm
  -- the names differ in their first letter, whatever its case
  cases named <;> cases named' <;> first | exact ⟨rfl, rfl⟩ | exact absurd same (by decide)

/-- A text says the type whose name it is, and if it is the name of none it is kept. -/
theorem ofString_cases (raw : String) :
    (∃ type name, Named type name ∧ Recases name raw ∧ ofString raw = type) ∨
      (∀ type name, Named type name → ¬Recases name raw) ∧ ofString raw = unrecognized raw := by
  rw [ofString]
  cases found : known.find? fun entry => sameIgnoringCase entry.1 raw with
  | none =>
    rw [List.find?_eq_none] at found
    refine .inr ⟨fun type name named recases => ?_, rfl⟩
    exact found _ (named_iff.mp named) (sameIgnoringCase_iff.mpr recases)
  | some entry =>
    obtain ⟨name, type⟩ := entry
    have named : Named type name := named_iff.mpr (List.mem_of_find?_eq_some found)
    have same : sameIgnoringCase name raw = true := by simpa using List.find?_some found
    exact .inl ⟨type, name, named, sameIgnoringCase_iff.mp same, rfl⟩

theorem ofString_eq_named_iff {type : DiffType} {name : String} (named : Named type name)
    (raw : String) : ofString raw = type ↔ Recases name raw := by
  rcases ofString_cases raw with ⟨type', name', named', recases', said⟩ | ⟨unnamed, kept⟩
  · constructor
    · intro said'
      obtain rfl := said'.symm.trans said
      rwa [← named.toString_eq, named'.toString_eq]
    · intro recases
      obtain ⟨rfl, -⟩ := named.unique named' recases recases'
      exact said
  · constructor
    · intro said
      exact absurd (said.symm.trans kept) (named.recognized raw)
    · intro recases
      exact absurd recases (unnamed type name named)

theorem names_iff_recases {raw : String} :
    Names raw ↔ ∃ type name, Named type name ∧ Recases name raw := by
  simp only [names_iff, sameIgnoringCase_iff, named_iff]
  constructor
  · rintro ⟨⟨name, type⟩, inside, recases⟩
    exact ⟨type, name, inside, recases⟩
  · rintro ⟨type, name, inside, recases⟩
    exact ⟨(name, type), inside, recases⟩

/-! ### Reading and writing -/

/-- A text is parsed as a known type when it is the name of the type in some case of its letters,
and is kept otherwise. A type is written as its name or as the text that was kept. Parsing what was
written gives the type back unless it keeps the name of a known type. -/
structure Exact (parse : String → DiffType) (write : DiffType → String) : Prop where
  known : ∀ {type : DiffType} {name : String}, Named type name →
    ∀ raw, parse raw = type ↔ Recases name raw
  kept : ∀ raw, parse raw = unrecognized raw ↔
    ∀ type name, Named type name → ¬Recases name raw
  total : ∀ raw, (∃ type name, Named type name ∧ parse raw = type) ∨ parse raw = unrecognized raw
  single : ∀ {raw : String} {type type' : DiffType} {name name' : String}, Named type name →
    Named type' name' → Recases name raw → Recases name' raw → name = name'
  rewritten : ∀ {raw : String} {type : DiffType} {name : String}, Named type name →
    Recases name raw → write (parse raw) = name
  unchanged : ∀ raw, (∀ type name, Named type name → ¬Recases name raw) → write (parse raw) = raw
  again : ∀ raw, parse (write (parse raw)) = parse raw
  undone : ∀ type, parse (write type) = type ↔
    ¬∃ raw type' name, type = unrecognized raw ∧ Named type' name ∧ Recases name raw
  edited : ∀ raw, (parse raw).isEdited = true ↔ raw.toList ∈ spellings "Edited".toList

theorem exact_ofString : Exact ofString DiffType.toString where
  known named raw := ofString_eq_named_iff named raw
  kept raw := by
    rw [ofString_eq_iff, names_iff_recases]
    simp
  total raw := by
    rcases ofString_cases raw with ⟨type, name, named, -, said⟩ | ⟨-, kept⟩
    · exact .inl ⟨type, name, named, said⟩
    · exact .inr kept
  single named named' recases recases' := (named.unique named' recases recases').2
  rewritten named recases := by
    rw [(ofString_eq_named_iff named _).mpr recases, named.toString_eq]
  unchanged raw unnamed := by
    rcases ofString_cases raw with ⟨type, name, named, recases, -⟩ | ⟨-, kept⟩
    · exact absurd recases (unnamed type name named)
    · rw [kept, DiffType.toString]
  again raw := by rw [ofString_toString, norm_ofString]
  undone type := by
    rw [ofString_toString, norm_eq_self_iff]
    simp only [names_iff_recases]
    constructor
    · rintro unnamed ⟨raw, type', name, rfl, named, recases⟩
      exact unnamed raw rfl ⟨type', name, named, recases⟩
    · rintro none raw rfl ⟨type', name, named, recases⟩
      exact none ⟨raw, type', name, rfl, named, recases⟩
  edited raw := by
    rw [isEdited_iff, ofString_eq_named_iff .edited, recases_iff, mem_spellings]

/-- Types are read and written exactly, with 64 texts for an edited node, in the two ways to read
them and the three to write them. -/
theorem ofString_exact :
    Exact ofString DiffType.toString ∧
      (spellings "Edited".toList).length = 64 ∧ (spellings "Edited".toList).Nodup ∧
      (∀ raw, ofOwned raw = ofString raw) ∧
      ∀ type : DiffType, type.intoString = type.toString ∧ ToString.toString type = type.toString :=
  ⟨exact_ofString, by decide, by decide, ofOwned_eq, fun type => ⟨intoString_eq type, rfl⟩⟩

end DeployGate.Plan.DiffType
