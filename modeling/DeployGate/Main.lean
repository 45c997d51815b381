import DeployGate.Command.LogLine
import DeployGate.Command.Program

/-!
# The executable

Reads what the command line names, and prints what the program makes of it.
-/

namespace DeployGate.Command

open Files (Inputs Location ReadFault)

/-- The number of an error of the system, whose sign depends on where it was found. -/
def errorNumber (code : UInt32) : Nat :=
  if code.toNat < 0x80000000 then code.toNat else UInt32.size - code.toNat

def readFault : IO.Error → ReadFault
  | .noFileOrDirectory .. => .missing
  | .inappropriateType _ code _ => if errorNumber code = 20 then .notDirectory else .isDirectory
  | .permissionDenied .. => .other "Permission denied (os error 13)"
  | .invalidArgument _ code details =>
    if errorNumber code = 36 then .nameTooLong else .other details
  | error => .other (toString error)

partial def readAll (stream : IO.FS.Stream) (before : ByteArray) : IO ByteArray := do
  let chunk ← stream.read 65536
  if chunk.isEmpty then return before
  readAll stream (before ++ chunk)

def readLocation (location : Location) : IO (Location × Except ReadFault ByteArray) := do
  try
    let bytes ← match location with
      | .standardInput => readAll (← IO.getStdin) .empty
      | .file path => IO.FS.readBinFile path
    return (location, .ok bytes)
  catch error => return (location, .error (readFault error))

/-- What the command line names, read in advance. -/
def readInputs (arguments : List String) : IO Inputs := do
  let locations := match Invocation.ofArguments arguments with
    | .ok invocation => invocation.locations
    | .error _ => []
  let found ← locations.mapM readLocation
  let bytes (location : Location) := (found.lookup location).getD (.error .missing)
  return ⟨fun path => bytes (.file path), bytes .standardInput⟩

/-- Text is styled for a terminal unless the user wants none of it. -/
def currentStyle : IO Style := do
  let refused := (← IO.getEnv "NO_COLOR").isSome
  return if refused || !(← (← IO.getStdout).isTty) then .plain else .colored

def execute (arguments : List String) : IO UInt32 := do
  let inputs ← readInputs arguments
  let exit := program arguments (← IO.getEnv "RUST_LOG") inputs (← currentStyle)
  let stderr ← IO.getStderr
  for record in exit.log do
    stderr.putStrLn (logLine record)
  stderr.putStr exit.complaint
  (← IO.getStdout).putStr exit.output
  return exit.code.toUInt32

end DeployGate.Command

def main (arguments : List String) : IO UInt32 :=
  DeployGate.Command.execute arguments
