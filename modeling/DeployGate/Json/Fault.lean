import DeployGate.Text.ByteCount
import DeployGate.Text.Choice
import DeployGate.Text.Quoted

/-!
# Faults of a JSON document

A fault is a cause and a place. While a document is being read the place is kept as the part that
was still to be read, and it is turned into a line and a column once, when the reading has failed.
-/

namespace DeployGate.Json

/-- A value of another type than the one expected, as far as a message shows it. -/
inductive Unexpected
  | null
  | boolean (value : Bool)
  | integer (value : Int)
  | float (text : String)
  | string (text : String)
  | sequence
  | map
  deriving DecidableEq, Repr

def Unexpected.describe : Unexpected → String
  | null => "null"
  | boolean value => "boolean `" ++ (if value then "true" else "false") ++ "`"
  | integer value => "integer `" ++ toString value ++ "`"
  | float text => "floating point `" ++ text ++ "`"
  | string text => "string " ++ Text.quoted text
  | sequence => "sequence"
  | map => "map"

inductive Cause
  | endInValue
  | endInObject
  | endInList
  | endInString
  | noValue
  | brokenWord
  | noColon
  | noCommaInObject
  | noCommaInList
  | keyNotString
  | trailingComma
  | trailingCharacters
  | malformedNumber
  | numberOutOfRange
  | badEscape
  | loneSurrogate
  | unfinishedSurrogatePair
  | controlCharacter
  | tooDeep
  | wrongType (found : Unexpected) (expected : String)
  | wrongValue (found : Unexpected) (expected : String)
  | wrongLength (length : Nat) (expected : String)
  | missingField (key : String)
  | duplicateField (key : String)
  | unknownField (key : String) (known : List String)
  | unknownVariant (name : String) (known : List String)
  deriving DecidableEq, Repr

def Cause.message : Cause → String
  | endInValue => "EOF while parsing a value"
  | endInObject => "EOF while parsing an object"
  | endInList => "EOF while parsing a list"
  | endInString => "EOF while parsing a string"
  | noValue => "expected value"
  | brokenWord => "expected ident"
  | noColon => "expected `:`"
  | noCommaInObject => "expected `,` or `\x7d`"
  | noCommaInList => "expected `,` or `]`"
  | keyNotString => "key must be a string"
  | trailingComma => "trailing comma"
  | trailingCharacters => "trailing characters"
  | malformedNumber => "invalid number"
  | numberOutOfRange => "number out of range"
  | badEscape => "invalid escape"
  | loneSurrogate => "lone leading surrogate in hex escape"
  | unfinishedSurrogatePair => "unexpected end of hex escape"
  | controlCharacter => "control character (\\u0000-\\u001F) found while parsing a string"
  | tooDeep => "recursion limit exceeded"
  | wrongType found expected => "invalid type: " ++ found.describe ++ ", expected " ++ expected
  | wrongValue found expected => "invalid value: " ++ found.describe ++ ", expected " ++ expected
  | wrongLength length expected =>
    "invalid length " ++ toString length ++ ", expected " ++ expected
  | missingField key => "missing field `" ++ key ++ "`"
  | duplicateField key => "duplicate field `" ++ key ++ "`"
  | unknownField key known => "unknown field `" ++ key ++ "`, expected " ++ Text.offer known
  | unknownVariant name known => "unknown variant `" ++ name ++ "`, expected " ++ Text.offer known

/-- A cause, what was still to be read when it was found, and how many bytes into that it points. -/
structure Fault where
  cause : Cause
  rest : List Char
  ahead : Nat
  deriving DecidableEq, Repr

/-- A fault found when everything before `rest` had been read. -/
def Fault.here (cause : Cause) (rest : List Char) : Fault := ⟨cause, rest, 0⟩

/-- A fault blamed on the next byte, or on the end of the document when nothing is left. -/
def Fault.next (cause : Cause) (rest : List Char) : Fault := ⟨cause, rest, 1⟩

/-- A line, from 1 on, and the number of bytes before the place on that line. -/
structure Place where
  line : Nat
  column : Nat
  deriving DecidableEq, Repr

def Place.after (bytes : List UInt8) : Place :=
  ⟨bytes.count 10 + 1, (bytes.reverse.takeWhile (· ≠ 10)).length⟩

/-- The number of the document's bytes before the place of a fault, never more than it has. -/
def Fault.offset (fault : Fault) (document : String) : Nat :=
  min document.utf8ByteSize (document.utf8ByteSize - Text.byteCount fault.rest + fault.ahead)

def Fault.place (fault : Fault) (document : String) : Place :=
  Place.after (document.toUTF8.data.toList.take (fault.offset document))

end DeployGate.Json
