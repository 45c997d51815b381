import DeployGate.Json.Scalar
import DeployGate.Json.Skip

/-!
# Lists and objects

The loops over the elements of a list and over the members of an object, and documents that hold
one value. A list or object inside too many others is refused: where a reader for its parts is
optional, `none` says that the limit is reached.
-/

namespace DeployGate.Json

/-- What stands before the next element of a list: its end, or the element itself. -/
inductive ListStep (text : List Char)
  | close (rest : List Char) (shorter : rest.length < text.length)
  | element (rest : Remainder text)

/-- Looks for an element, which a comma precedes unless it is the first. -/
def nextElement (first : Bool) (text : List Char) : Except Fault (ListStep text) :=
  match skipped : skipBlank text with
  | [] => .error (.next .endInList [])
  | c :: rest =>
    have shorter := length_lt_of_skipBlank skipped
    if c = ']' then .ok (.close rest shorter)
    else if first then .ok (.element (.all text))
    else if c = ',' then
      match skipBlank rest with
      | [] => .error (.next .endInValue [])
      | ']' :: after => .error (.next .trailingComma (']' :: after))
      | _ => .ok (.element (.ofShorter shorter))
    else .error (.next .noCommaInList (c :: rest))

def readElements (item : Reader α) (first : Bool) (text : List Char) :
    Except Fault (Found (List α) text) :=
  match nextElement first text with
  | .error fault => .error fault
  | .ok (.close rest shorter) => .ok ⟨[], rest, shorter⟩
  | .ok (.element ⟨rest, le⟩) =>
    match item rest with
    | .error fault => .error fault
    | .ok ⟨value, after, shorter⟩ =>
      match readElements item false after with
      | .error fault => .error fault
      | .ok ⟨values, last, shorter'⟩ => .ok ⟨value :: values, last, by omega⟩
termination_by text.length

def readList (item : Option (Reader α)) : Reader (List α) :=
  afterBlank fun
    | '[' :: rest =>
      match item with
      | none => .error (.next .tooDeep ('[' :: rest))
      | some item => (readElements item true rest).map Found.later
    | text => .error (mismatch "a sequence" text)

def closeList : Reader Unit :=
  afterBlank fun
    | [] => .error (.next .endInList [])
    | ']' :: _ => .ok (.first ())
    | ',' :: rest =>
      match skipBlank rest with
      | ']' :: after => .error (.next .trailingComma (']' :: after))
      | other => .error (.next .trailingCharacters other)
    | other => .error (.next .trailingCharacters other)

def afterColon (reader : Reader α) : Reader α :=
  afterBlank fun
    | [] => .error (.next .endInObject [])
    | ':' :: rest => (reader rest).map Found.later
    | other => .error (.next .noColon other)

/-- Where a member is refused by its key, the blame lies behind the end of the object if that is
all that follows. -/
def settle (text : List Char) : List Char :=
  match skipBlank text with
  | '\x7d' :: rest => rest
  | other => other

/-- Folds over the members of an object. From the state and a key, `member` gives the reader of the
value, which is also what moves the state on. -/
abbrev MemberFold (σ : Type) := σ → String → Except Cause (Reader σ)

/-- The members of an object from the inside of a key to the closing brace. -/
def readMembers (member : MemberFold σ) (state : σ) (text : List Char) :
    Except Fault (Found σ text) :=
  match readQuoted text with
  | .error fault => .error fault
  | .ok ⟨key, afterKey, shorterKey⟩ =>
    match member state key with
    | .error cause => .error (.here cause (settle afterKey))
    | .ok reader =>
      match afterColon reader afterKey with
      | .error fault => .error fault
      | .ok ⟨next, afterValue, shorterValue⟩ =>
        match skipped : skipBlank afterValue with
        | [] => .error (.next .endInObject [])
        | '\x7d' :: rest =>
          have shorter := length_lt_of_skipBlank skipped
          .ok ⟨next, rest, by omega⟩
        | ',' :: rest =>
          have shorter := length_lt_of_skipBlank skipped
          match skipped' : skipBlank rest with
          | [] => .error (.next .endInValue [])
          | '"' :: inKey =>
            have shorter' := length_lt_of_skipBlank skipped'
            (readMembers member next inKey).map (·.widen (by omega))
          | '\x7d' :: after => .error (.next .trailingComma ('\x7d' :: after))
          | other => .error (.next .keyNotString other)
        | other => .error (.next .noCommaInObject other)
termination_by text.length

def readObject (member : MemberFold σ) (state : σ) : Reader σ :=
  afterBlank fun
    | [] => .error (.next .endInObject [])
    | '\x7d' :: _ => .ok (.first state)
    | '"' :: inKey => (readMembers member state inKey).map Found.later
    | other => .error (.next .keyNotString other)

def readOnlyKey : Reader String :=
  afterBlank fun
    | [] => .error (.next .endInObject [])
    | '"' :: rest => (readQuoted rest).map Found.later
    | '\x7d' :: rest => .error (.next .noValue ('\x7d' :: rest))
    | other => .error (.next .keyNotString other)

/-- One of some named variants: its name, or an object with its name as only key and `null` as the
value. -/
def readVariant (variants : List (String × α)) : Reader α :=
  afterBlank fun
    | [] => .error (.next .endInValue [])
    | '"' :: rest => do
      let ⟨name, after, shorter⟩ ← readQuoted rest
      let variant ← variantNamed variants name after
      return ⟨variant, after, by simp only [List.length_cons]; omega⟩
    | '\x7b' :: rest => do
      let ⟨name, afterName, shorterName⟩ ← readOnlyKey rest
      let variant ← variantNamed variants name afterName
      let ⟨_, afterValue, shorterValue⟩ ← afterColon readNull afterName
      match skipped : skipBlank afterValue with
      | [] => .error (.here .endInObject [])
      | '\x7d' :: last =>
        have shorter := length_lt_of_skipBlank skipped
        return ⟨variant, last, by simp only [List.length_cons]; omega⟩
      | other => .error (.here .noValue other)
    | other => .error (.next .noValue other)

/-- How many lists and objects may be open at the same time. -/
def depthLimit : Nat := 127

/-- What is read inside one more list or object: nothing when none may open any more. -/
def within {α : Type u} (read : (depth : Nat) → α) : (depth : Nat) → Option α
  | 0 => none
  | depth + 1 => some (read depth)

structure Defect where
  cause : Cause
  place : Place
  deriving DecidableEq, Repr

def Defect.message (defect : Defect) : String :=
  defect.cause.message ++ " at line " ++ toString defect.place.line
    ++ " column " ++ toString defect.place.column

/-- The value that a whole document spells: only blank characters may follow it. -/
def readAll (reader : Reader α) (document : List Char) : Except Fault α :=
  match reader document with
  | .error fault => .error fault
  | .ok found =>
    match skipBlank found.rest with
    | [] => .ok found.value
    | other => .error (.next .trailingCharacters other)

def decode (reader : Reader α) (document : String) : Except Defect α :=
  (readAll reader document.toList).mapError fun fault => ⟨fault.cause, fault.place document⟩

end DeployGate.Json
