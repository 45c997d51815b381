import DeployGate.Proofs.Json.Compact
import DeployGate.Proofs.Json.Words
import DeployGate.Proofs.Plan.Places

/-!
# The modify index

A deployment is submitted with the index of the job that the plan was made for. In a plan response
the index is either exactly the number that is written, or the response is refused: no number wraps
around, is rounded or is cut off at the greatest one.
-/

namespace DeployGate.Plan

open Json (FitsWord Numeral Row Spelled Spells Tree numeral_toDigits textOfUnits unitsOfText
  valuesOf)

/-! ### Places of the index -/

/-- Where the modify index stands in a plan response: under the only key of its name in an object,
or behind the diff in a list. -/
inductive IndexPlace
  | member (key : List Nat) (spelled : textOfUnits key = some "JobModifyIndex")
    (before after : List (List Nat × Tree))
    (alone : valuesOf "JobModifyIndex" (before ++ after) = [])
  | element (diff : Tree) (after : List Tree)

/-- The response with a value in the place, or with none. Out of a list a value can only be left
where nothing follows it. -/
inductive IndexPlace.Holds : IndexPlace → Option Tree → Tree → Prop
  | member {key : List Nat} {spelled} {before after : List (List Nat × Tree)} {alone}
    (value : Tree) : Holds (member key spelled before after alone) (some value)
      (.object (before ++ (key, value) :: after))
  | noMember {key : List Nat} {spelled} {before after : List (List Nat × Tree)} {alone} :
    Holds (member key spelled before after alone) none (.object (before ++ after))
  | element {diff : Tree} {after : List Tree} (value : Tree) :
    Holds (element diff after) (some value) (.array (diff :: value :: after))
  | noElement {diff : Tree} : Holds (element diff []) none (.array [diff])

/-- The parts behind the index. -/
def Response.behindIndex : Parts := [("Warnings", .text), ("FailedTGAllocs", .unplaced)]

/-- A response of what its parts are read as. -/
def Response.assemble (diff : Option (Option JobDiff)) (index : Option UInt64)
    (others : Option (Row behindIndex.types)) : Option Response :=
  (diff.bind fun diff => (index.bind fun index => others.map fun row => (index, row)).map
    fun row => (diff, row)).map Kind.response.build

namespace Response

/-- The index is read independently of the other parts. -/
theorem assemble_eq (diff : Option (Option JobDiff)) (index : Option UInt64)
    (others : Option (Row behindIndex.types)) :
    assemble diff index others
      = (assemble diff (some 0) others).bind fun rest =>
          index.map fun index => { rest with jobModifyIndex := index } := by
  cases diff with
  | none => rfl
  | some diff =>
    cases others with
    | none => cases index <;> rfl
    | some row => cases index <;> rfl

theorem decode_object (depth : Nat) (members : List (List Nat × Tree)) :
    Kind.response.decode (depth + 1) (.object members) =
      if Json.areTexts members then
        assemble (Part.diff.cell depth (valuesOf "Diff" members))
          (Part.index.cell depth (valuesOf "JobModifyIndex" members))
          (behindIndex.ofMembers depth members)
      else none := by
  rw [Kind.decode_object]
  have row : Kind.response.parts.ofMembers depth members = _ := Parts.ofMembers_cons members
  rw [row, Parts.ofMembers_cons]
  rfl

end Response

namespace IndexPlace

/-- The index that a value stands for, or that stands for none. -/
def indexOf : Option Tree → Option UInt64
  | none => some 0
  | some value => Json.decodeUnsigned value

/-- Of what stands for the index only the word is seen that it is read as. -/
theorem decode (place : IndexPlace) (depth : Nat) :
    ∃ context : Option Response, ∀ {given tree}, place.Holds given tree →
      Kind.response.decode (depth + 1) tree = context.bind fun rest =>
        (indexOf given).map fun index => { rest with jobModifyIndex := index } := by
  cases place with
  | member key spelled before after alone =>
    -- all but the index is read of the members around its place
    let diff := Part.diff.cell depth (valuesOf "Diff" (before ++ after))
    let others := Response.behindIndex.ofMembers depth (before ++ after)
    refine ⟨if Json.areTexts (before ++ after) then Response.assemble diff (some 0) others
      else none, ?_⟩
    intro given tree holds
    cases holds with
    | member value =>
      have texts : Json.areTexts (before ++ (key, value) :: after)
          = Json.areTexts (before ++ after) := by
        simp [Json.areTexts, spelled]
      have index : valuesOf "JobModifyIndex" (before ++ (key, value) :: after) = [value] := by
        rw [Json.valuesOf_append, List.append_eq_nil_iff] at alone
        rw [Parts.valuesOf_same spelled, alone.1, alone.2, List.nil_append]
      rw [Response.decode_object, texts, index,
        Parts.valuesOf_other spelled (by decide : "Diff" ≠ "JobModifyIndex"),
        Parts.ofMembers_other spelled (by decide)]
      split
      · exact Response.assemble_eq _ _ others
      · rfl
    | noMember =>
      rw [Response.decode_object, alone]
      split
      · exact Response.assemble_eq _ _ others
      · rfl
  | element diff after =>
    let others := Response.behindIndex.ofElements depth after
    refine ⟨Response.assemble (Part.diff.decode depth diff) (some 0) others, ?_⟩
    intro given tree holds
    cases holds with
    | element value =>
      rw [Kind.decode_array]
      exact Response.assemble_eq _ (Part.index.decode depth value) others
    | noElement =>
      rw [Kind.decode_array]
      exact Response.assemble_eq _ (some 0) others

/-- What is read of a place is known from any value with which the response is read. -/
theorem ofJson_eq_ok_iff {place : IndexPlace} {given : Option Tree} {tree : Tree} {base : String}
    {rest : Response} (holds : place.Holds given tree) (spelled : Spelled tree base)
    (decoded : Response.ofJson base = .ok rest) {given' : Option Tree} {tree' : Tree}
    {document : String} (holds' : place.Holds given' tree') (spelled' : Spelled tree' document)
    {response : Response} :
    Response.ofJson document = .ok response ↔
      ∃ index, indexOf given' = some index ∧
        response = { rest with jobModifyIndex := index } := by
  obtain ⟨context, read⟩ := place.decode 126
  have reads := Kind.response.reads Json.depthLimit
  have decoded := (reads.decode_iff spelled).mp decoded
  have here : Kind.response.decode Json.depthLimit tree = _ := read holds
  have there : Kind.response.decode Json.depthLimit tree' = _ := read holds'
  -- what the given response is read as tells what is read around the place
  rw [here] at decoded
  obtain ⟨other, rfl, found⟩ := Option.bind_eq_some_iff.mp decoded
  obtain ⟨index, -, rfl⟩ := Option.map_eq_some_iff.mp found
  refine (reads.decode_iff spelled').trans ?_
  rw [there, Option.bind_some, Option.map_eq_some_iff]
  exact exists_congr fun index => and_congr_right fun _ => eq_comm

/-- The place takes exactly the numbers that are words, as what they are. -/
structure Exact (place : IndexPlace) (rest : Response) : Prop where
  accepted : ∀ {literal : List Char} {tree : Tree} {document : String}, Numeral literal →
    place.Holds (some (.number literal)) tree → Spelled tree document →
      ((∃ response, Response.ofJson document = .ok response) ↔ FitsWord literal)
  value : ∀ {literal : List Char} {tree : Tree} {document : String} {response : Response},
    Numeral literal → place.Holds (some (.number literal)) tree → Spelled tree document →
      Response.ofJson document = .ok response →
        response.jobModifyIndex.toNat = Nat.ofDigitChars 10 literal 0 ∧
          response = { rest with jobModifyIndex := response.jobModifyIndex }
  unfit : ∀ {literal : List Char} {tree : Tree} {document : String}, Numeral literal →
    ¬ FitsWord literal → place.Holds (some (.number literal)) tree → Spelled tree document →
      ∃ defect, Response.ofJson document = .error defect
  other : ∀ {value tree : Tree} {document : String}, (∀ literal, value ≠ .number literal) →
    place.Holds (some value) tree → Spelled tree document →
      ∃ defect, Response.ofJson document = .error defect
  absent : ∀ {tree : Tree} {document : String}, place.Holds none tree → Spelled tree document →
    Response.ofJson document = .ok { rest with jobModifyIndex := 0 }
  canonical : ∀ {index : UInt64} {tree : Tree} {document : String},
    place.Holds (some (.number (toString index.toNat).toList)) tree → Spelled tree document →
      Response.ofJson document = .ok { rest with jobModifyIndex := index }

theorem exact_of_ofJson {place : IndexPlace} {given : Option Tree} {tree : Tree} {base : String}
    {rest : Response} (holds : place.Holds given tree) (spelled : Spelled tree base)
    (decoded : Response.ofJson base = .ok rest) : place.Exact rest := by
  have read {given tree document response} (holds' : place.Holds given tree)
      (spelled' : Spelled tree document) :
      Response.ofJson document = .ok response ↔
        ∃ index, indexOf given = some index ∧ response = { rest with jobModifyIndex := index } :=
    ofJson_eq_ok_iff holds spelled decoded holds' spelled'
  have refused {value tree document} (holds' : place.Holds (some value) tree)
      (spelled' : Spelled tree document) (none : Json.decodeUnsigned value = none) :
      ∃ defect, Response.ofJson document = .error defect := by
    cases result : Response.ofJson document with
    | error defect => exact ⟨defect, rfl⟩
    | ok response =>
      obtain ⟨index, found, -⟩ := (read holds' spelled').mp result
      cases none.symm.trans found
  constructor
  case accepted =>
    intro literal tree document numeral holds' spelled'
    rw [Json.fitsWord_iff]
    constructor
    · rintro ⟨response, result⟩
      obtain ⟨index, found, -⟩ := (read holds' spelled').mp result
      exact ⟨index, (Json.decodeUnsigned_eq_some_iff numeral).mp found⟩
    · rintro ⟨index, isWord⟩
      have found := (Json.decodeUnsigned_eq_some_iff numeral).mpr isWord
      exact ⟨_, (read holds' spelled').mpr ⟨index, found, rfl⟩⟩
  case value =>
    intro literal tree document response numeral holds' spelled' result
    obtain ⟨index, found, rfl⟩ := (read holds' spelled').mp result
    exact ⟨((Json.decodeUnsigned_eq_some_iff numeral).mp found).value.symm, rfl⟩
  case unfit =>
    intro literal tree document numeral unfit holds' spelled'
    refine refused holds' spelled' (Option.eq_none_iff_forall_ne_some.mpr fun index found => ?_)
    exact unfit (Json.fitsWord_iff.mpr ⟨index, (Json.decodeUnsigned_eq_some_iff numeral).mp found⟩)
  case other =>
    intro value tree document noNumber holds' spelled'
    refine refused holds' spelled' ?_
    cases value with
    | number literal => exact absurd rfl (noNumber literal)
    | _ => rfl
  case absent =>
    intro tree document holds' spelled'
    exact (read holds' spelled').mpr ⟨0, rfl, rfl⟩
  case canonical =>
    intro index tree document holds' spelled'
    exact (read holds' spelled').mpr ⟨index, Json.decodeUnsigned_toNat index, rfl⟩

end IndexPlace

/-! ### Writing -/

/-- The index stands in the written response as its decimal literal, of which there is only one, and
is read back from it. -/
structure Response.WritesIndex (response : Response) : Prop where
  holds : ∃ place : IndexPlace, place.Holds
    (some (.number (toString response.jobModifyIndex.toNat).toList)) response.toJson.toTree
  spelled : Spelled response.toJson.toTree (String.ofList response.toJson.compact)
  unique : ∀ {literal : List Char}, Numeral literal → FitsWord literal →
    Nat.ofDigitChars 10 literal 0 = response.jobModifyIndex.toNat →
      literal = (toString response.jobModifyIndex.toNat).toList
  again : ∀ {document : String} {result : Response}, Spelled response.toJson.toTree document →
    Response.ofJson document = .ok result → result.jobModifyIndex = response.jobModifyIndex

theorem Response.holds_toJson (response : Response) :
    ∃ place : IndexPlace, place.Holds
      (some (.number (toString response.jobModifyIndex.toNat).toList)) response.toJson.toTree := by
  obtain ⟨diff, index, warnings, unplaced⟩ := response
  have other (name : String) (differ : name ≠ "JobModifyIndex") (value : Tree)
      (members : List (List Nat × Tree)) :
      valuesOf "JobModifyIndex" ((unitsOfText name, value) :: members)
        = valuesOf "JobModifyIndex" members := by
    rw [Json.valuesOf_cons, Json.textOfUnits_unitsOfText, if_neg (by simpa using differ),
      List.nil_append]
  refine ⟨.member (unitsOfText "JobModifyIndex") (Json.textOfUnits_unitsOfText _)
    [(unitsOfText "Diff", _)] [(unitsOfText "Warnings", _), (unitsOfText "FailedTGAllocs", _)] ?_,
    .member _⟩
  rw [List.singleton_append, other "Diff" (by decide), other "Warnings" (by decide),
    other "FailedTGAllocs" (by decide)]
  rfl

theorem Response.writesIndex (response : Response) : response.WritesIndex where
  holds := response.holds_toJson
  spelled := response.toJson.spelled_compact
  unique numeral fits value := (Json.isWord_iff numeral).mp ⟨fits.1, value⟩
  again := by
    intro document result spelled decoded
    obtain ⟨place, holds⟩ := response.holds_toJson
    obtain ⟨index, found, same⟩ :=
      (IndexPlace.ofJson_eq_ok_iff holds spelled decoded holds spelled).mp decoded
    rw [IndexPlace.indexOf, Json.decodeUnsigned_toNat] at found
    rw [same, ← Option.some.inj found]

/-! ### Responses -/

/-- In every response that can be read but for its modify index, the index is exactly the number
that is written for it, or the response is refused. -/
theorem ofJson_jobModifyIndex :
    (∀ {place : IndexPlace} {given : Option Tree} {tree : Tree} {base : String} {rest : Response},
      place.Holds given tree → Spelled tree base → Response.ofJson base = .ok rest →
        place.Exact rest) ∧
      ∀ response : Response, response.WritesIndex :=
  ⟨IndexPlace.exact_of_ofJson, Response.writesIndex⟩

/-- The greatest word is the last number that is taken. -/
theorem ofJson_jobModifyIndex_greatest :
    Response.ofJson "\x7b\x7d" = .ok {} ∧
      Response.ofJson "\x7b\"JobModifyIndex\":18446744073709551615\x7d"
        = .ok { jobModifyIndex := 0xffffffffffffffff } ∧
      ∃ defect, Response.ofJson "\x7b\"JobModifyIndex\":18446744073709551616\x7d"
        = .error defect := by
  let place : IndexPlace := .member (unitsOfText "JobModifyIndex")
    (Json.textOfUnits_unitsOfText _) [] [] rfl
  have bare : Response.ofJson "\x7b\x7d" = .ok {} := by decide +kernel
  have spelled : Spelled (.object []) "\x7b\x7d" :=
    ⟨_, [], .emptyObject .closeObject, by simp, rfl⟩
  have taken : place.Exact {} := ofJson_jobModifyIndex.1 .noMember spelled bare
  have spelledWord (n : Nat) :
      Spelled (.object [(unitsOfText "JobModifyIndex", .number (Nat.toDigits 10 n))])
        (String.ofList ("\x7b\"JobModifyIndex\":".toList ++ Nat.toDigits 10 n ++ ['\x7d'])) :=
    ⟨_, [], .object (Spells.named "JobModifyIndex" (by decide) (.number (numeral_toDigits n)))
      .closeObject, by simp, by simp⟩
  refine ⟨bare, ?_, ?_⟩
  · exact taken.canonical (.member _) (spelledWord 0xffffffffffffffff)
  · refine taken.unfit (numeral_toDigits 0x10000000000000000) ?_ (.member _) (spelledWord _)
    rintro ⟨-, fits⟩
    rw [Nat.ofDigitChars_ten_toDigits] at fits
    exact absurd fits (by decide)

end DeployGate.Plan
