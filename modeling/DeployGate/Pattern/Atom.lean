import DeployGate.Pattern.Flags
import DeployGate.Text.HexDigit

/-!
# Characters and escapes of a pattern

Nothing is known here about the letters of Unicode. So its classes, its word boundaries and its
cases of letters cannot be used, but those of ASCII can where Unicode is switched off.
-/

namespace DeployGate.Pattern

inductive Atom
  | character (c : Char)
  -- One of the characters of a class.
  | oneOf
  -- A place between characters.
  | place
  deriving DecidableEq, Repr

/-- Whether a character can stand for itself. Without Unicode only those of ASCII can in a set. -/
def Flags.admits (flags : Flags) (inSet : Bool) (c : Char) : Bool :=
  if flags.unicode then !flags.foldCase else !inSet || c.toNat < 0x80

/-- The number that some hexadecimal digits spell after another one. -/
def readHex (flags : Flags) :
    (count value : Nat) → (text : List Char) → Option (Nat × Remainder text)
  | 0, value, text => some (value, .all text)
  | count + 1, value, text =>
    match flags.skip text with
    | ⟨[], _⟩ => none
    | ⟨c :: rest, le⟩ =>
      match Text.hexDigit? c with
      | none => none
      | some digit =>
        (readHex flags count (16 * value + digit) rest).map fun (value, after) =>
          (value, after.later.widen le)

/-- The character of a code point with the given number of digits. Two digits stand for a byte
where Unicode is switched off, which must be ASCII. -/
def readCodePoint (flags : Flags) (digits : Nat) (text : List Char) :
    Option (Atom × Remainder text) :=
  match readHex flags digits 0 text with
  | none => none
  | some (value, rest) =>
    if value.isValidChar && (flags.unicode || digits ≠ 2 || value < 0x80) then
      some (.character (Char.ofNat value), rest)
    else none

/-- How many digits follow a letter that announces a code point. -/
def codeDigits? : Char → Option Nat
  | 'x' => some 2
  | 'u' => some 4
  | 'U' => some 8
  | _ => none

def escaped? (flags : Flags) (c : Char) : Option Atom :=
  match c with
  | 'd' | 's' | 'w' => if flags.unicode then none else some .oneOf
  | 'b' | 'B' | '<' | '>' => if flags.unicode then none else some .place
  | 'A' | 'z' => some .place
  | 'a' => some (.character '\x07')
  | 'f' => some (.character '\x0c')
  | 'n' => some (.character '\n')
  | 'r' => some (.character '\r')
  | 't' => some (.character '\t')
  | 'v' => some (.character '\x0b')
  | c => if c.toNat < 0x80 && !c.isAlphanum then some (.character c) else none

/-- Reads an escape after its backslash. No closing brace can stand in the patterns here, so escapes
that need one are malformed. -/
def readEscape (flags : Flags) (text : List Char) : Option (Found Atom text) :=
  match text with
  | [] => none
  | c :: rest =>
    match codeDigits? c with
    | some digits =>
      (readCodePoint flags digits rest).map fun (atom, after) => .behind atom after
    | none => (escaped? flags c).map .first

end DeployGate.Pattern
