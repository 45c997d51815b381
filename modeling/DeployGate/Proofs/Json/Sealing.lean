import DeployGate.Proofs.Json.Decoding

/-!
# Cut and extended documents

A document that spells a list or an object ends with its closing bracket. Nothing but blanks may
stand behind it, and without it the document is not decoded.
-/

namespace DeployGate.Json

variable {α : Type}

/-! ### Closing brackets -/

/-- The value is a list or an object. -/
def Tree.Nested : Tree → Prop
  | .array _ | .object _ => True
  | _ => False

/-- The phrase ends with a closing bracket. -/
def Phrase.Closes : Phrase → Prop
  | .value tree => tree.Nested
  | .elements _ | .members _ => True
  | _ => False

def isClosing (c : Char) : Bool := c = ']' || c = '\x7d'

theorem Spells.closing {phrase : Phrase} {text : List Char} (spells : Spells phrase text)
    (closes : phrase.Closes) :
    ∃ front bracket, isClosing bracket = true ∧ text = front ++ [bracket] := by
  have further {more : List Char} (front : List Char)
      (ends : ∃ front bracket, isClosing bracket = true ∧ more = front ++ [bracket]) :
      ∃ front' bracket, isClosing bracket = true ∧ front ++ more = front' ++ [bracket] := by
    obtain ⟨front', bracket, closing, rfl⟩ := ends
    exact ⟨front ++ front', bracket, closing, by simp⟩
  induction spells with
  | @blank phrase c _ _ _ ih => exact further [c] (ih closes)
  | emptyArray _ ih => exact further ['['] (ih trivial)
  | @array _ _ text _ _ _ _ ih => exact further ('[' :: text) (ih trivial)
  | closeArray => exact ⟨[], ']', rfl, rfl⟩
  | @element _ _ text _ _ _ _ ih => exact further (',' :: text) (ih trivial)
  | emptyObject _ ih => exact further ['\x7b'] (ih trivial)
  | @object _ _ _ text _ _ _ _ ih => exact further ('\x7b' :: text) (ih trivial)
  | closeObject => exact ⟨[], '\x7d', rfl, rfl⟩
  | @nextMember _ _ _ text _ _ _ _ ih => exact further (',' :: text) (ih trivial)
  | _ => exact closes.elim

/-! ### Sealed documents -/

/-- A document that is decoded ends with a closing bracket and blanks behind it. More blanks may
follow it and nothing else, and it is refused if more than blanks is cut off its end. -/
structure Sealed (decode : String → Except Defect α) : Prop where
  closed : ∀ {document value}, decode document = .ok value →
    ∃ front bracket blanks, isClosing bracket = true ∧ (∀ c ∈ blanks, isBlank c = true) ∧
      document.toList = front ++ bracket :: blanks
  blank : ∀ {document more value}, decode document = .ok value →
    (∀ c ∈ more.toList, isBlank c = true) → decode (document ++ more) = .ok value
  extended : ∀ {document more value}, decode document = .ok value →
    (∃ c ∈ more.toList, isBlank c = false) → ∃ defect, decode (document ++ more) = .error defect
  cut : ∀ {front back value}, decode (front ++ back) = .ok value →
    (∃ c ∈ back.toList, isBlank c = false) → ∃ defect, decode front = .error defect

namespace Reads

variable {reader : Reader α} {decode : Tree → Option α} {document : String} {value : α}

/-- What a list or an object is read as does not depend on what follows it. -/
theorem run_of_decode (reads : Reads reader decode)
    (nested : ∀ tree value, decode tree = some value → tree.Nested)
    (decoded : Json.decode reader document = .ok value) :
    ∃ front bracket blanks, isClosing bracket = true ∧ (∀ c ∈ blanks, isBlank c = true) ∧
      document.toList = front ++ bracket :: blanks ∧
      ∀ more, reader.run (document.toList ++ more) = .ok (value, blanks ++ more) := by
  obtain ⟨tree, ⟨text, blanks, spells, blank, same⟩, found⟩ := reads.spelled decoded
  have nested := nested tree value found
  obtain ⟨front, bracket, closing, rfl⟩ := spells.closing nested
  refine ⟨front, bracket, blanks, closing, blank, by simpa using same, fun more => ?_⟩
  have ends : tree.Ends (blanks ++ more) := by
    cases tree with
    | number literal => exact nested.elim
    | _ => trivial
  have gives := reads.gives (blanks ++ more) spells ends
  rw [found] at gives
  rw [same, List.append_assoc]
  generalize reader.run _ = reading at gives
  cases gives
  rfl

theorem sealed (reads : Reads reader decode)
    (nested : ∀ tree value, decode tree = some value → tree.Nested) :
    Sealed (Json.decode reader) := by
  have refused {document : String} (fails : ∀ value, Json.decode reader document ≠ .ok value) :
      ∃ defect, Json.decode reader document = .error defect := by
    cases decoded : Json.decode reader document with
    | error defect => exact ⟨defect, rfl⟩
    | ok value => exact absurd decoded (fails value)
  constructor
  case closed =>
    intro document value decoded
    obtain ⟨front, bracket, blanks, closing, blank, same, -⟩ := reads.run_of_decode nested decoded
    exact ⟨front, bracket, blanks, closing, blank, same⟩
  case blank =>
    intro document more value decoded blank'
    obtain ⟨-, -, blanks, -, blank, -, run⟩ := reads.run_of_decode nested decoded
    rw [decode_eq_ok_iff, String.toList_append, run]
    exact ⟨_, rfl, List.forall_mem_append.mpr ⟨blank, blank'⟩⟩
  case extended =>
    rintro document more value decoded ⟨c, inside, solid⟩
    refine refused fun value' decoded' => ?_
    obtain ⟨-, -, blanks, -, -, -, run⟩ := reads.run_of_decode nested decoded
    obtain ⟨rest, ran, blank⟩ := decode_eq_ok_iff.mp decoded'
    rw [String.toList_append, run] at ran
    cases ran
    cases solid.symm.trans (blank c (List.mem_append_right _ inside))
  case cut =>
    rintro front back value decoded ⟨c, inside, solid⟩
    refine refused fun value' decoded' => ?_
    -- what follows the shorter document is left of the longer one, but only blanks may be
    obtain ⟨-, -, blanks, -, -, -, run⟩ := reads.run_of_decode nested decoded'
    obtain ⟨rest, ran, blank⟩ := decode_eq_ok_iff.mp decoded
    rw [String.toList_append, run] at ran
    cases ran
    cases solid.symm.trans (blank c (List.mem_append_right _ inside))

end Reads

end DeployGate.Json
