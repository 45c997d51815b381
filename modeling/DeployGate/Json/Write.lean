import DeployGate.Json.Value

/-!
# Writing values

The compact form has no blank characters; the indented form puts every element and member on a line
of its own. Strings keep every character but the quote, the backslash and the control characters.
-/

namespace DeployGate.Json

def writeChar (c : Char) : List Char :=
  if c = '"' then ['\\', '"']
  else if c = '\\' then ['\\', '\\']
  else if c = '\x08' then ['\\', 'b']
  else if c = '\x0c' then ['\\', 'f']
  else if c = '\n' then ['\\', 'n']
  else if c = '\r' then ['\\', 'r']
  else if c = '\t' then ['\\', 't']
  else if c.toNat < 0x20 then
    ['\\', 'u', '0', '0', Nat.digitChar (c.toNat / 16), Nat.digitChar (c.toNat % 16)]
  else [c]

def writeString (text : String) : List Char :=
  '"' :: (text.toList.flatMap writeChar ++ ['"'])

namespace Value

mutual

def compact : Value → List Char
  | null => "null".toList
  | bool value => (if value then "true" else "false").toList
  | number value => value.render
  | string value => writeString value
  | array [] => ['[', ']']
  | array (first :: rest) => '[' :: (compact first ++ compactElements rest)
  | object [] => ['\x7b', '\x7d']
  | object ((key, value) :: rest) =>
    '\x7b' :: (writeString key ++ ':' :: (compact value ++ compactMembers rest))

/-- The elements after the first one, and the closing bracket. -/
def compactElements : List Value → List Char
  | [] => [']']
  | element :: rest => ',' :: (compact element ++ compactElements rest)

/-- The members after the first one, and the closing brace. -/
def compactMembers : List (String × Value) → List Char
  | [] => ['\x7d']
  | (key, value) :: rest =>
    ',' :: (writeString key ++ ':' :: (compact value ++ compactMembers rest))

end

/-- A new line, indented by two columns for each list or object that is open. -/
def newLine (depth : Nat) : List Char := '\n' :: List.replicate (2 * depth) ' '

mutual

/-- The indented form inside the given number of lists and objects. -/
def indented (depth : Nat) : Value → List Char
  | array (first :: rest) =>
    '[' :: (newLine (depth + 1) ++ indented (depth + 1) first ++ indentedElements depth rest)
  | object ((key, value) :: rest) =>
    '\x7b' :: (newLine (depth + 1) ++ writeString key ++ ':' :: ' ' ::
      (indented (depth + 1) value ++ indentedMembers depth rest))
  | array [] => ['[', ']']
  | object [] => ['\x7b', '\x7d']
  | null => "null".toList
  | bool value => (if value then "true" else "false").toList
  | number value => value.render
  | string value => writeString value

def indentedElements (depth : Nat) : List Value → List Char
  | [] => newLine depth ++ [']']
  | element :: rest =>
    ',' :: (newLine (depth + 1) ++ indented (depth + 1) element ++ indentedElements depth rest)

def indentedMembers (depth : Nat) : List (String × Value) → List Char
  | [] => newLine depth ++ ['\x7d']
  | (key, value) :: rest =>
    ',' :: (newLine (depth + 1) ++ writeString key ++ ':' :: ' ' ::
      (indented (depth + 1) value ++ indentedMembers depth rest))

end

end Value

end DeployGate.Json
