import DeployGate.Json.Number
import DeployGate.Json.String

/-!
# Scalars

Readers of strings, optional values, unsigned integers and named variants. A value of another type
is itself read before it is refused, unless it is a list or an object: then nothing of it is.
-/

namespace DeployGate.Json

/-- The text of the string whose opening quote was read. -/
def readQuoted : Reader String := Reader.map String.ofList readString

def mismatch (expected : String) (text : List Char) : Fault :=
  match text with
  | [] => .next .endInValue []
  | 'n' :: rest => word "ull" .null rest
  | 't' :: rest => word "rue" (.boolean true) rest
  | 'f' :: rest => word "alse" (.boolean false) rest
  | '"' :: rest =>
    match readQuoted rest with
    | .ok found => .here (.wrongType (.string found.value) expected) found.rest
    | .error fault => fault
  | '[' :: _ => .here (.wrongType .sequence expected) text
  | '\x7b' :: _ => .here (.wrongType .map expected) text
  | _ =>
    if startsNumber text then
      match readNumber text with
      | .ok found => .here (.wrongType found.value.toUnexpected expected) found.rest
      | .error fault => fault
    else .next .noValue text
where
  word (letters : String) (found : Unexpected) (rest : List Char) : Fault :=
    match dropWord letters.toList rest with
    | .ok after => .here (.wrongType found expected) after
    | .error fault => fault

def readText : Reader String :=
  afterBlank fun
    | '"' :: rest => (readQuoted rest).map Found.later
    | text => .error (mismatch "a string" text)

/-- Nothing for `null`, else what the reader gives. -/
def readNullable (reader : Reader α) : Reader (Option α) :=
  afterBlank fun
    | 'n' :: rest => readWord 'n' "ull" none rest
    | text => (reader text).map (Found.map some)

def readNull : Reader Unit :=
  afterBlank fun
    | 'n' :: rest => readWord 'n' "ull" () rest
    | text => .error (mismatch "unit" text)

/-- An integer from `0` to `2^64 - 1`. -/
def readUnsigned : Reader UInt64 :=
  afterBlank fun text =>
    if startsNumber text then
      match readNumber text with
      | .error fault => .error fault
      | .ok ⟨.integer value _ _, rest, shorter⟩ =>
        if value < 0 then .error (.here (.wrongValue (.integer value) "u64") rest)
        else .ok ⟨UInt64.ofNat value.toNat, rest, shorter⟩
      | .ok ⟨number, rest, _⟩ => .error (.here (.wrongType number.toUnexpected "u64") rest)
    else .error (mismatch "u64" text)

def variantNamed (variants : List (String × α)) (name : String) (rest : List Char) :
    Except Fault α :=
  match variants.lookup name with
  | some variant => .ok variant
  | none => .error (.here (.unknownVariant name (variants.map (·.1))) rest)

end DeployGate.Json
