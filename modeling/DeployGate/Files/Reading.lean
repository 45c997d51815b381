/-!
# Reading texts

A text is read from a file or from the standard input. What stands there is bytes, and may be no
text; or nothing can be read at all.
-/

namespace DeployGate.Files

inductive ReadFault
  | missing
  -- What should be a directory on the way is none.
  | notDirectory
  | isDirectory
  | nameTooLong
  -- The path has a zero character in it.
  | zeroInPath
  -- The bytes are not UTF-8.
  | notText
  | other (reason : String)
  deriving DecidableEq, Repr

def ReadFault.message : ReadFault → String
  | missing => "No such file or directory (os error 2)"
  | notDirectory => "Not a directory (os error 20)"
  | isDirectory => "Is a directory (os error 21)"
  | nameTooLong => "File name too long (os error 36)"
  | zeroInPath => "file name contained an unexpected NUL byte"
  | notText => "stream did not contain valid UTF-8"
  | other reason => reason

inductive Location
  | standardInput
  | file (path : String)
  deriving DecidableEq, Repr

def Location.describe : Location → String
  | standardInput => "stdin"
  | file path => path

/-- What can be read: the bytes at every path, and those of the standard input. -/
structure Inputs where
  file : String → Except ReadFault ByteArray
  standardInput : Except ReadFault ByteArray

namespace Inputs

def bytes (inputs : Inputs) : Location → Except ReadFault ByteArray
  | .standardInput => inputs.standardInput
  | .file path => inputs.file path

def text (inputs : Inputs) (location : Location) : Except ReadFault String := do
  let bytes ← inputs.bytes location
  match String.fromUTF8? bytes with
  | some text => return text
  | none => throw .notText

end Inputs

end DeployGate.Files
