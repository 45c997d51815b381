import DeployGate.Gate.Log

/-!
# Log lines

A log record on one line: its level, the part of the program that speaks, the message, and the
values by their names.
-/

namespace DeployGate.Command

open Gate (Level LogRecord LogValue)

def levelTag : Level → String
  | .debug => "DEBUG"
  | .info => "INFO"
  | .warn => "WARN"
  | .error => "ERROR"

/-- A character of a message. The control characters that could steer a terminal are spelled out. -/
def messageChar (c : Char) : List Char :=
  if ['\x07', '\x08', '\x0c', '\x1b', '\x7f'].contains c then
    ['\\', 'x', Nat.digitChar (c.toNat / 16), Nat.digitChar (c.toNat % 16)]
  else if 0x80 ≤ c.toNat && c.toNat ≤ 0x9f then
    '\\' :: 'u' :: '\x7b' :: Nat.toDigits 16 c.toNat ++ ['\x7d']
  else [c]

def valueText : LogValue → String
  | .text value => value
  | .count value => toString value

def logLine (record : LogRecord) : String :=
  levelTag record.level ++ " " ++ record.speaker.name ++ ": "
    ++ String.ofList (record.message.toList.flatMap messageChar)
    ++ String.join (record.values.map fun (name, value) => " " ++ name ++ "=" ++ valueText value)

end DeployGate.Command
