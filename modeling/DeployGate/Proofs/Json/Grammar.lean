import DeployGate.Json.Container

/-!
# The grammar of documents

Which texts spell a JSON value, told without a reader. Blanks may stand in front of every token. A
value is a tree that keeps what a document says and forgets how it is laid out and escaped: a number
is its literal, and a string is the list of code units that its characters and escapes stand for.
-/

namespace DeployGate.Json

/-- A value as it stands in a document. Not every string of it is a text, as half of a surrogate
pair may stand alone, and a key of an object may come more than once. -/
inductive Tree
  | null
  | bool (value : Bool)
  | number (literal : List Char)
  | string (units : List Nat)
  | array (elements : List Tree)
  | object (members : List (List Nat × Tree))
  deriving Repr, Inhabited

/-! ### Strings -/

/-- The UTF-16 form of a character. -/
def codeUnits (c : Char) : List Nat :=
  if c.toNat < 0x10000 then [c.toNat]
  else [0xD800 + (c.toNat - 0x10000) / 0x400, 0xDC00 + (c.toNat - 0x10000) % 0x400]

/-- The characters whose UTF-16 form the code units are, unless half of a pair stands alone. -/
def charsOfUnits : List Nat → Option (List Char)
  | [] => some []
  | unit :: units =>
    if isLowSurrogate unit then none
    else if isHighSurrogate unit then
      match units with
      | [] => none
      | low :: units =>
        if isLowSurrogate low then (charsOfUnits units).map (joinSurrogates unit low :: ·)
        else none
    else (charsOfUnits units).map (Char.ofNat unit :: ·)

def textOfUnits (units : List Nat) : Option String := (charsOfUnits units).map String.ofList

def unitsOfText (text : String) : List Nat := text.toList.flatMap codeUnits

/-- What stands between the quotes of a string: characters as they are, short escapes, and code
units in four hexadecimal digits. -/
inductive Letters : List Nat → List Char → Prop
  | nil : Letters [] []
  | plain {c : Char} {units : List Nat} {text : List Char} :
    c ≠ '"' → c ≠ '\\' → isControl c = false → Letters units text →
      Letters (codeUnits c ++ units) (c :: text)
  | short {letter c : Char} {units : List Nat} {text : List Char} :
    shortEscape? letter = some c → Letters units text →
      Letters (codeUnits c ++ units) ('\\' :: letter :: text)
  | hex {a b c d : Char} {unit : Nat} {units : List Nat} {text : List Char} :
    hexNumber? a b c d = some unit → Letters units text →
      Letters (unit :: units) ('\\' :: 'u' :: a :: b :: c :: d :: text)

/-! ### Numbers -/

/-- One digit or more. -/
def Digits (text : List Char) : Prop := text ≠ [] ∧ ∀ c ∈ text, c.isDigit = true

/-- The digits before the point. A zero does not stand before another digit. -/
inductive Whole : List Char → Prop
  | zero : Whole ['0']
  | digits {c : Char} {text : List Char} : c ≠ '0' → Digits (c :: text) → Whole (c :: text)

inductive Fraction : List Char → Prop
  | none : Fraction []
  | digits {text : List Char} : Digits text → Fraction ('.' :: text)

inductive Exponent : List Char → Prop
  | none : Exponent []
  | digits {mark : Char} {sign text : List Char} :
    mark = 'e' ∨ mark = 'E' → sign = [] ∨ sign = ['+'] ∨ sign = ['-'] → Digits text →
      Exponent (mark :: (sign ++ text))

/-- A number without its sign. -/
inductive Magnitude : List Char → Prop
  | parts {whole fraction exponent : List Char} :
    Whole whole → Fraction fraction → Exponent exponent →
      Magnitude (whole ++ (fraction ++ exponent))

inductive Numeral : List Char → Prop
  | positive {text : List Char} : Magnitude text → Numeral text
  | negative {text : List Char} : Magnitude text → Numeral ('-' :: text)

/-! ### Values -/

/-- What a part of a document can spell: a value, a member of an object or what follows its key, and
what follows an element or a member, up to the closing bracket. -/
inductive Phrase
  | value (tree : Tree)
  | member (key : List Nat) (tree : Tree)
  | entry (tree : Tree)
  | elements (trees : List Tree)
  | members (members : List (List Nat × Tree))

inductive Spells : Phrase → List Char → Prop
  | blank {phrase : Phrase} {c : Char} {text : List Char} :
    isBlank c = true → Spells phrase text → Spells phrase (c :: text)
  | null : Spells (.value .null) "null".toList
  | bool (value : Bool) :
    Spells (.value (.bool value)) (if value then "true" else "false").toList
  | number {literal : List Char} : Numeral literal → Spells (.value (.number literal)) literal
  | string {units : List Nat} {text : List Char} :
    Letters units text → Spells (.value (.string units)) ('"' :: (text ++ ['"']))
  | emptyArray {text : List Char} :
    Spells (.elements []) text → Spells (.value (.array [])) ('[' :: text)
  | array {tree : Tree} {trees : List Tree} {text more : List Char} :
    Spells (.value tree) text → Spells (.elements trees) more →
      Spells (.value (.array (tree :: trees))) ('[' :: (text ++ more))
  | closeArray : Spells (.elements []) [']']
  | element {tree : Tree} {trees : List Tree} {text more : List Char} :
    Spells (.value tree) text → Spells (.elements trees) more →
      Spells (.elements (tree :: trees)) (',' :: (text ++ more))
  | emptyObject {text : List Char} :
    Spells (.members []) text → Spells (.value (.object [])) ('\x7b' :: text)
  | object {key : List Nat} {tree : Tree} {members : List (List Nat × Tree)}
    {text more : List Char} :
    Spells (.member key tree) text → Spells (.members members) more →
      Spells (.value (.object ((key, tree) :: members))) ('\x7b' :: (text ++ more))
  | closeObject : Spells (.members []) ['\x7d']
  | nextMember {key : List Nat} {tree : Tree} {members : List (List Nat × Tree)}
    {text more : List Char} :
    Spells (.member key tree) text → Spells (.members members) more →
      Spells (.members ((key, tree) :: members)) (',' :: (text ++ more))
  | member {key : List Nat} {tree : Tree} {text entry : List Char} :
    Letters key text → Spells (.entry tree) entry →
      Spells (.member key tree) ('"' :: (text ++ '"' :: entry))
  | entry {tree : Tree} {text : List Char} :
    Spells (.value tree) text → Spells (.entry tree) (':' :: text)

/-- The document spells the value; blanks may also follow it. -/
def Spelled (tree : Tree) (document : String) : Prop :=
  ∃ text blanks, Spells (.value tree) text ∧ (∀ c ∈ blanks, isBlank c = true) ∧
    document.toList = text ++ blanks

end DeployGate.Json
