import DeployGate.Text.Visible

/-!
# Quoted text

How a text is shown inside a message: between double quotes, with the quote, the backslash and
four control characters escaped by a letter, and every other character that does not show as its
hexadecimal code point in braces.
-/

namespace DeployGate.Text

def quotedChar (c : Char) : List Char :=
  if c = '\x00' then ['\\', '0']
  else if c = '\t' then ['\\', 't']
  else if c = '\r' then ['\\', 'r']
  else if c = '\n' then ['\\', 'n']
  else if c = '\\' || c = '"' then ['\\', c]
  else if isVisible c then [c]
  else '\\' :: 'u' :: '\x7b' :: Nat.toDigits 16 c.toNat ++ ['\x7d']

def quoted (text : String) : String :=
  String.ofList ('"' :: text.toList.flatMap quotedChar ++ ['"'])

end DeployGate.Text
