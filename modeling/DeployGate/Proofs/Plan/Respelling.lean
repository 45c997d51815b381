import DeployGate.Proofs.Plan.Places
import Mathlib.Logic.Relation

/-!
# Respelling plans

A plan is decoded by its content. Blanks, escapes, the order of members and members with undeclared
keys can be changed anywhere in a document, any number of times, and it decodes to the same diff or
response.
-/

namespace DeployGate.Plan

open Json (Letters Spelled Spells Tree textOfUnits unitsOfText)

/-! ### Changes -/

/-- The members are in another order, or one with an undeclared key and any value has come in. -/
inductive Rearranged (kind : Kind) : Tree → Tree → Prop
  | permuted {members members' : List (List Nat × Tree)} : members.Perm members' →
    Rearranged kind (.object members) (.object members')
  | inserted {key : List Nat} {name : String} (spelled : textOfUnits key = some name)
    (undeclared : name ∉ kind.parts.map Prod.fst) (before after : List (List Nat × Tree))
    (value : Tree) :
    Rearranged kind (.object (before ++ after)) (.object (before ++ (key, value) :: after))

/-- The documents spell the same value, or values that differ in how one record is arranged. -/
inductive Change (root : Kind) : String → String → Prop
  | respelled {tree : Tree} {document document' : String} :
    Spelled tree document → Spelled tree document' → Change root document document'
  | rearranged {target : Kind} (path : Path (.node root) target) {record record' : Tree}
    {document document' : String} : Rearranged target record record' →
    Spelled (path.fill record) document → Spelled (path.fill record') document' →
    Change root document document'

/-- One document becomes the other by any number of changes, made or undone. -/
def Equivalent (root : Kind) : String → String → Prop := Relation.EqvGen (Change root)

/-! ### Changes make no difference -/

variable {kind root : Kind} {record record' : Tree} {depth : Nat}

theorem Rearranged.ne_null (rearranged : Rearranged kind record record') :
    record ≠ .null ∧ record' ≠ .null := by
  cases rearranged <;> simp

theorem Rearranged.decode_eq (rearranged : Rearranged kind record record') :
    kind.decode depth record = kind.decode depth record' := by
  cases depth with
  | zero => rfl
  | succ depth =>
    cases rearranged with
    | @permuted members members' perm =>
      have texts : Json.areTexts members = Json.areTexts members' := perm.all_eq
      have rows : kind.parts.ofMembers depth members = kind.parts.ofMembers depth members' :=
        Parts.ofMembers_congr fun name _ => perm.filterMap _
      rw [Kind.decode_object, Kind.decode_object, texts, rows]
    | @inserted key name spelled undeclared before after value =>
      have texts : Json.areTexts (before ++ (key, value) :: after)
          = Json.areTexts (before ++ after) := by
        simp [Json.areTexts, spelled]
      rw [Kind.decode_object, Kind.decode_object, texts,
        Parts.ofMembers_other spelled undeclared]

theorem Change.decode_iff {document document' : String} (change : Change root document document')
    (result : root.Result) :
    Json.decode (root.read Json.depthLimit) document = .ok result ↔
      Json.decode (root.read Json.depthLimit) document' = .ok result := by
  have reads := root.reads Json.depthLimit
  cases change with
  | respelled spelled spelled' => rw [reads.decode_iff spelled, reads.decode_iff spelled']
  | rearranged path rearranged spelled spelled' =>
    -- the rest of the document is the same, and all that it sees is what the record is read as
    obtain ⟨left, -, context, through, -⟩ := path.decode_fill Json.depthLimit
    obtain ⟨solid, solid'⟩ := rearranged.ne_null
    rw [reads.decode_iff spelled, reads.decode_iff spelled', through _ solid, through _ solid',
      rearranged.decode_eq]

theorem Equivalent.decode_iff {document document' : String}
    (equivalent : Equivalent root document document') (result : root.Result) :
    Json.decode (root.read Json.depthLimit) document = .ok result ↔
      Json.decode (root.read Json.depthLimit) document' = .ok result := by
  induction equivalent with
  | rel _ _ change => exact change.decode_iff result
  | refl => exact Iff.rfl
  | symm _ _ _ ih => exact ih.symm
  | trans _ _ _ _ _ ih ih' => exact ih.trans ih'

/-- Equivalent documents are decoded to the same diff, and to the same response. -/
theorem ofJson_equivalent :
    (∀ document document', Equivalent .job document document' → ∀ job,
      JobDiff.ofJson document = .ok job ↔ JobDiff.ofJson document' = .ok job) ∧
    ∀ document document', Equivalent .response document document' → ∀ response,
      Response.ofJson document = .ok response ↔ Response.ofJson document' = .ok response :=
  ⟨fun _ _ equivalent job => equivalent.decode_iff job,
    fun _ _ equivalent response => equivalent.decode_iff response⟩

/-- The members change places, one with a number too large for any reader comes in, and a key is
escaped. -/
theorem ofJson_equivalent_rearranged :
    let document := "\x7b\"Type\":\"Added\",\"ID\":\"web\"\x7d"
    let document' := "\x7b \"\\u0049D\":\"web\", \"Type\":\"Added\",\"x\":[1e999]\x7d\n"
    Equivalent .job document document' ∧
      JobDiff.ofJson document' = .ok { type := .added, id := "web" } := by
  intro document document'
  let type : List Nat × Tree := (unitsOfText "Type", .string (unitsOfText "Added"))
  let id : List Nat × Tree := (unitsOfText "ID", .string (unitsOfText "web"))
  let extra : List Nat × Tree := (unitsOfText "x", .array [.number "1e999".toList])
  have spellsType := Spells.named "Type" (by decide) (Spells.ofText "Added" (by decide))
  have web := Spells.ofText "web" (by decide)
  have spellsId := Spells.named "ID" (by decide) web
  have escaped : Letters (unitsOfText "ID") "\\u0049D".toList :=
    .hex (rfl : Json.hexNumber? '0' '0' '4' '9' = some 0x49)
      (.plain (by decide) (by decide) rfl .nil)
  have one : Json.Whole ['1'] := .digits (by decide) ⟨by simp, List.all_eq_true.mp (by decide)⟩
  have nines : Json.Digits "999".toList := ⟨by simp, List.all_eq_true.mp (by decide)⟩
  have large : Json.Numeral (['1'] ++ ([] ++ ('e' :: ([] ++ "999".toList)))) :=
    .positive (.parts one .none (.digits (.inl rfl) (.inl rfl) nines))
  have spelled : Spells (.value (.object [type, id])) _ :=
    .object spellsType (.nextMember spellsId .closeObject)
  have turned : Spells (.value (.object [id, type])) _ :=
    .object spellsId (.nextMember spellsType .closeObject)
  have number : Spells (.value (.number "1e999".toList)) _ := .number large
  have spellsExtra := Spells.named "x" (by decide) (.array number .closeArray)
  have spelled' : Spells (.value (.object [id, type, extra])) _ :=
    .object (.blank (c := ' ') rfl (.member escaped (.entry web)))
      (.nextMember (.blank (c := ' ') rfl spellsType) (.nextMember spellsExtra .closeObject))
  have first : Spelled (.object [type, id]) document :=
    ⟨_, [], spelled, by simp, by simp [document]⟩
  have middle : Spelled (.object [id, type]) "\x7b\"ID\":\"web\",\"Type\":\"Added\"\x7d" :=
    ⟨_, [], turned, by simp, by simp⟩
  have last : Spelled (.object [id, type, extra]) document' :=
    ⟨_, ['\n'], spelled', by simp [Json.isBlank], by simp [document']⟩
  have permuted : Change .job document _ :=
    .rearranged .here (.permuted (.swap id type [])) first middle
  have inserted : Change .job _ document' :=
    .rearranged .here (.inserted (Json.textOfUnits_unitsOfText "x") (by decide) [id, type] [] _)
      middle last
  have equivalent : Equivalent .job document document' :=
    .trans _ _ _ (.rel _ _ permuted) (.rel _ _ inserted)
  have decoded : JobDiff.ofJson document = .ok { type := .added, id := "web" } := by decide +kernel
  exact ⟨equivalent, (ofJson_equivalent.1 _ _ equivalent _).mp decoded⟩

/-- A key that is half of a surrogate pair is no text, so a member with it is not passed over. -/
theorem ofJson_loneSurrogate :
    let document := "\x7b\"Type\":\"Edited\"\x7d"
    let document' := "\x7b\"Type\":\"Edited\",\"\\ud800\":1\x7d"
    let type : List Nat × Tree := (unitsOfText "Type", .string (unitsOfText "Edited"))
    let extra : List Nat × Tree := ([0xD800], .number ['1'])
    Spelled (.object [type]) document ∧ Spelled (.object [type, extra]) document' ∧
      (∀ name ∈ Kind.job.parts.map Prod.fst, extra.1 ≠ unitsOfText name) ∧
      JobDiff.ofJson document = .ok { type := .edited } ∧
      JobDiff.ofJson document' = .error ⟨.unfinishedSurrogatePair, ⟨1, 25⟩⟩ := by
  intro document document' type extra
  have spellsType := Spells.named "Type" (by decide) (Spells.ofText "Edited" (by decide))
  have lone : Letters [0xD800] "\\ud800".toList :=
    .hex (rfl : Json.hexNumber? 'd' '8' '0' '0' = some 0xD800) .nil
  have one : Json.Whole ['1'] := .digits (by decide) ⟨by simp, List.all_eq_true.mp (by decide)⟩
  have number : Json.Numeral (['1'] ++ ([] ++ [])) := .positive (.parts one .none .none)
  have spelled : Spells (.value (.object [type])) _ := .object spellsType .closeObject
  have spelled' : Spells (.value (.object [type, extra])) _ :=
    .object spellsType (.nextMember (.member lone (.entry (.number number))) .closeObject)
  refine ⟨⟨_, [], spelled, by simp, by simp [document]⟩,
    ⟨_, [], spelled', by simp, by simp [document']⟩, by decide, by decide +kernel,
    by decide +kernel⟩

end DeployGate.Plan
