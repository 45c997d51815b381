import DeployGate.Json.Number
import DeployGate.Json.String

/-!
# Skipping a value

The value of a key that nobody declared is checked for its grammar alone, and lists and objects may
be nested in it to any depth. What is open is kept as a list of brackets, the innermost first.
-/

namespace DeployGate.Json

inductive Bracket
  | list
  | object
  deriving DecidableEq, Repr

def skipScalar : Reader Unit
  | 'n' :: rest => readWord 'n' "ull" () rest
  | 't' :: rest => readWord 't' "rue" () rest
  | 'f' :: rest => readWord 'f' "alse" () rest
  | '"' :: rest => (skipString rest).map Found.later
  | text => if startsNumber text then skipNumber text else .error (.next .noValue text)

mutual

/-- Drops a value and the rest of everything that is open around it. -/
def skipNested (nest : List Bracket) (text : List Char) : Except Fault (Found Unit text) :=
  match skipped : skipBlank text with
  | [] => .error (.next .endInValue [])
  | '[' :: rest =>
    have shorter := length_lt_of_skipBlank skipped
    match skipped' : skipBlank rest with
    | [] => .error (.next .endInList [])
    | ']' :: after =>
      have shorter' := length_lt_of_skipBlank skipped'
      (skipAfter nest after).map fun last => ⟨(), last.val, by have := last.property; omega⟩
    | _ => (skipNested (.list :: nest) rest).map (·.widen (by omega))
  | '\x7b' :: rest =>
    have shorter := length_lt_of_skipBlank skipped
    match skipped' : skipBlank rest with
    | '\x7d' :: after =>
      have shorter' := length_lt_of_skipBlank skipped'
      (skipAfter nest after).map fun last => ⟨(), last.val, by have := last.property; omega⟩
    | _ => (skipMember nest rest).map (·.widen (by omega))
  | c :: rest =>
    match skipScalar (c :: rest) with
    | .error fault => .error fault
    | .ok ⟨_, after, shorter⟩ =>
      have := length_lt_of_skipBlank skipped
      have : after.length < text.length := by simp only [List.length_cons] at shorter; omega
      (skipAfter nest after).map fun last => ⟨(), last.val, by have := last.property; omega⟩
termination_by text.length

/-- Drops what follows a value in everything that is open around it. -/
def skipAfter (nest : List Bracket) (text : List Char) : Except Fault (Remainder text) :=
  match nest with
  | [] => .ok (.all text)
  | .list :: nest =>
    match skipped : skipBlank text with
    | [] => .error (.next .endInList [])
    | ',' :: rest =>
      have shorter := length_lt_of_skipBlank skipped
      (skipNested (.list :: nest) rest).map fun last =>
        ⟨last.rest, by have := last.shorter; omega⟩
    | ']' :: rest =>
      have shorter := length_lt_of_skipBlank skipped
      (skipAfter nest rest).map (·.widen (by omega))
    | other => .error (.next .noCommaInList other)
  | .object :: nest =>
    match skipped : skipBlank text with
    | [] => .error (.next .endInObject [])
    | ',' :: rest =>
      have shorter := length_lt_of_skipBlank skipped
      (skipMember nest rest).map fun last => ⟨last.rest, by have := last.shorter; omega⟩
    | '\x7d' :: rest =>
      have shorter := length_lt_of_skipBlank skipped
      (skipAfter nest rest).map (·.widen (by omega))
    | other => .error (.next .noCommaInObject other)
termination_by text.length

/-- Drops a member of an object and the rest of everything that is open around it. -/
def skipMember (nest : List Bracket) (text : List Char) : Except Fault (Found Unit text) :=
  match skipped : skipBlank text with
  | [] => .error (.next .endInObject [])
  | '"' :: rest =>
    have shorter := length_lt_of_skipBlank skipped
    match skipString rest with
    | .error fault => .error fault
    | .ok ⟨_, afterKey, shorter'⟩ =>
      match skipped' : skipBlank afterKey with
      | [] => .error (.next .endInObject [])
      | ':' :: value =>
        have shorter'' := length_lt_of_skipBlank skipped'
        (skipNested (.object :: nest) value).map (·.widen (by omega))
      | other => .error (.next .noColon other)
  | other => .error (.next .keyNotString other)
termination_by text.length

end

def skipValue : Reader Unit := skipNested []

end DeployGate.Json
