import DeployGate.Proofs.Command.FailClosed
import DeployGate.Proofs.Json.Sealing
import DeployGate.Proofs.Plan.Schema

/-!
# Torn plans

A plan that lost its end, or has more behind it than blanks, is no plan, and a check of it does not
proceed. The bytes may end anywhere, also in the middle of a character.
-/

namespace DeployGate.Plan

open Json (Sealed Tree)

/-- Records are made of lists and objects only. -/
theorem Kind.nested_of_decode {kind : Kind} {depth : Nat} (tree : Tree) (result : kind.Result)
    (decoded : kind.decode depth tree = some result) : tree.Nested := by
  cases Kind.decode_eq_some_iff.mp decoded <;> trivial

theorem sealed_ofJson (root : Kind) : Sealed (Json.decode (root.read Json.depthLimit)) :=
  (root.reads Json.depthLimit).sealed Kind.nested_of_decode

end DeployGate.Plan

namespace DeployGate.Command

open Files (Inputs)
open Json (Sealed isBlank)
open Plan (JobDiff Response)

/-! ### Bytes -/

def isBlankByte (byte : UInt8) : Bool :=
  byte == 0x20 || byte == 0x0a || byte == 0x09 || byte == 0x0d

/-- The bytes are those of the document with an end of them lost, or with others behind them. What
is lost or added has more in it than blanks, such as a closing bracket. -/
inductive Torn (document : String) : ByteArray → Prop
  | cut {kept lost : ByteArray} : kept ++ lost = document.toUTF8 →
    (∃ byte ∈ lost.data.toList, isBlankByte byte = false) → Torn document kept
  | extended {added : ByteArray} : (∃ byte ∈ added.data.toList, isBlankByte byte = false) →
    Torn document (document.toUTF8 ++ added)

/-- A text that begins with another one in bytes begins with it in characters. -/
theorem eq_append_of_toUTF8_eq {text document : String} {more : ByteArray}
    (same : text.toUTF8 ++ more = document.toUTF8) :
    ∃ rest : String, document = text ++ rest ∧ more = rest.toUTF8 := by
  have encoded : text.toList.utf8Encode ++ more = document.toList.utf8Encode := by
    rw [String.utf8Encode_toList, String.utf8Encode_toList]
    exact same
  obtain ⟨rest, split⟩ := List.isPrefix_of_utf8Encode_append_eq_utf8Encode more encoded
  refine ⟨String.ofList rest, ?_, ?_⟩
  · rw [← String.toList_inj, String.toList_append, String.toList_ofList, split]
  · rw [← split, List.utf8Encode_append, ByteArray.append_right_inj] at encoded
    rw [encoded, String.toUTF8, String.toByteArray_ofList]

theorem isBlankByte_of_isBlank {c : Char} {byte : UInt8} (blank : isBlank c = true)
    (inside : byte ∈ String.utf8EncodeChar c) : isBlankByte byte = true := by
  simp only [isBlank, Bool.or_eq_true, decide_eq_true_eq] at blank
  rcases blank with ((rfl | rfl) | rfl) | rfl <;> cases List.mem_singleton.mp inside <;> rfl

theorem exists_solid {text : String}
    (solid : ∃ byte ∈ text.toUTF8.data.toList, isBlankByte byte = false) :
    ∃ c ∈ text.toList, isBlank c = false := by
  obtain ⟨byte, inside, solid⟩ := solid
  have encoded : text.toUTF8 = (text.toList.flatMap String.utf8EncodeChar).toByteArray := by
    rw [String.toUTF8, ← String.utf8Encode_toList, List.utf8Encode]
  rw [encoded, List.data_toByteArray, List.mem_flatMap] at inside
  obtain ⟨c, inside, part⟩ := inside
  refine ⟨c, inside, ?_⟩
  rw [Bool.eq_false_iff]
  intro blank
  cases solid.symm.trans (isBlankByte_of_isBlank blank part)

/-! ### Checks -/

/-- The document is a plan of the kind that the check asks for. -/
def CheckOptions.Takes (options : CheckOptions) (document : String) : Prop :=
  match options.bareDiff with
  | true => ∃ job, JobDiff.ofJson document = .ok job
  | false => ∃ response, Response.ofJson document = .ok response

theorem not_decoded_of_torn {α : Type} {decode : String → Except Json.Defect α}
    (sealed : Sealed decode) {document text : String} {value : α}
    (decoded : decode document = .ok value) (torn : Torn document text.toUTF8) (value' : α) :
    decode text ≠ .ok value' := by
  -- these bytes are those of a text, so the document was torn between two characters
  generalize found : text.toUTF8 = bytes at torn
  cases torn with
  | @cut kept lost same solid =>
    subst found
    obtain ⟨rest, rfl, rfl⟩ := eq_append_of_toUTF8_eq same
    obtain ⟨defect, refused⟩ := sealed.cut decoded (exists_solid solid)
    simp [refused]
  | extended solid =>
    obtain ⟨rest, rfl, rfl⟩ := eq_append_of_toUTF8_eq found.symm
    obtain ⟨defect, refused⟩ := sealed.extended decoded (exists_solid solid)
    simp [refused]

theorem unplanned_of_torn {inputs : Inputs} {options : CheckOptions} {document : String}
    {bytes : ByteArray} (takes : options.Takes document) (torn : Torn document bytes)
    (read : inputs.bytes options.location = .ok bytes) : ¬ ∃ job, Planned inputs options job := by
  rintro ⟨job, planned⟩
  cases planned with
  | bare bare read' decoded =>
    cases read.symm.trans read'
    rw [CheckOptions.Takes, bare] at takes
    obtain ⟨value, took⟩ := takes
    exact not_decoded_of_torn (Plan.sealed_ofJson .job) took torn job decoded
  | response bare read' decoded =>
    cases read.symm.trans read'
    rw [CheckOptions.Takes, bare] at takes
    obtain ⟨value, took⟩ := takes
    exact not_decoded_of_torn (Plan.sealed_ofJson .response) took torn _ decoded

/-- Documents are decoded as a whole or not at all, and no check proceeds on torn bytes of one. -/
theorem check_torn :
    Sealed JobDiff.ofJson ∧ Sealed Response.ofJson ∧
    ∀ (inputs : Inputs) (options : CheckOptions) (verbose : Bool) (config : Option String)
      (format : Format) (style : Style) (document : String) (bytes : ByteArray),
      options.Takes document → Torn document bytes →
      inputs.bytes options.location = .ok bytes →
      let check : Invocation := ⟨.check options, verbose, config, format⟩
      (¬ ∃ job, Planned inputs options job) ∧ (check.run inputs style).result ≠ .ok true ∧
      ∀ arguments logFilter, Invocation.ofArguments arguments = .ok check →
        (program arguments logFilter inputs style).code = 1 := by
  refine ⟨Plan.sealed_ofJson .job, Plan.sealed_ofJson .response, ?_⟩
  intro inputs options verbose config format style document bytes takes torn read check
  have unplanned := unplanned_of_torn takes torn read
  have refused : (check.run inputs style).result ≠ .ok true := by
    rw [ne_eq, result_iff]
    rintro ⟨settings, job, -, planned, -⟩
    exact unplanned ⟨job, planned⟩
  refine ⟨unplanned, refused, fun arguments logFilter spelled => ?_⟩
  simp only [program, spelled, exit_code_eq_one_iff]
  exact refused

/-- A diff in a file without its closing bracket, and one with another behind it. -/
theorem check_torn_files :
    let document := "\x7b\"Type\":\"Edited\"\x7d"
    let kept := "\x7b\"Type\":\"Edited\""
    let inputs : Inputs := ⟨fun path =>
      if path = "cut" then .ok kept.toUTF8 else .ok (document.toUTF8 ++ document.toUTF8),
      .error .missing⟩
    ({ plan := "cut", bareDiff := true } : CheckOptions).Takes document ∧
      Torn document kept.toUTF8 ∧ Torn document (document.toUTF8 ++ document.toUTF8) ∧
      (program ["check", "--bare-diff", "cut"] none inputs .plain).code = 1 ∧
      (program ["check", "--bare-diff", "twice"] none inputs .plain).code = 1 := by
  intro document kept inputs
  let options (plan : String) : CheckOptions := { plan, bareDiff := true }
  have decoded : JobDiff.ofJson document = .ok { type := .edited } := by decide +kernel
  have takes (plan : String) : (options plan).Takes document := ⟨_, decoded⟩
  have solid (lost : String) (bracket : 0x7d ∈ lost.toUTF8.data.toList) :
      ∃ byte ∈ lost.toUTF8.data.toList, isBlankByte byte = false := ⟨0x7d, bracket, rfl⟩
  have cut : Torn document kept.toUTF8 :=
    .cut (String.toByteArray_append).symm (solid "\x7d" (by decide))
  have twice : Torn document (document.toUTF8 ++ document.toUTF8) :=
    .extended (solid document (by decide))
  have check (plan : String) := check_torn.2.2 inputs (options plan) false none .text .plain
  refine ⟨takes "cut", cut, twice, ?_, ?_⟩
  · exact (check "cut" document _ (takes _) cut rfl).2.2 _ none rfl
  · exact (check "twice" document _ (takes _) twice rfl).2.2 _ none rfl

end DeployGate.Command
