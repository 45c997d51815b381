import DeployGate.Pattern.Atom

/-!
# Sets of a pattern

A set stands in brackets: characters, ranges, classes by name, sets again, and operators between
them. What is read of one is how deep its parts are nested.
-/

namespace DeployGate.Pattern

/-- A set that is still open: how many parts stand behind the last operator and how deep they are
nested, and how deep what stands before it is. -/
structure OpenSet where
  parts : Nat := 0
  nesting : Nat := 0
  left : Option Nat := none
  deriving DecidableEq, Repr

namespace OpenSet

def add (set : OpenSet) (nesting : Nat) : OpenSet :=
  { set with parts := set.parts + 1, nesting := max set.nesting nesting }

/-- How deep the set is nested if it ends here. -/
def total (set : OpenSet) : Nat :=
  let right := if set.parts ≤ 1 then set.nesting else set.nesting + 1
  match set.left with
  | none => right
  | some left => max left right + 1

def operate (set : OpenSet) : OpenSet := { left := some set.total }

end OpenSet

def setNames : List String :=
  ["alnum", "alpha", "ascii", "blank", "cntrl", "digit", "graph", "lower", "print", "punct",
    "space", "upper", "word", "xdigit"]

/-- Reads a class by its name between colons after a bracket, and says whether it is negated. -/
def readNamedSet (text : List Char) : Option (Found Bool text) :=
  match text with
  | ':' :: '^' :: rest => (named rest).map fun found => (found.map fun _ => true).later.later
  | ':' :: rest => (named rest).map fun found => (found.map fun _ => false).later
  | _ => none
where
  named (text : List Char) : Option (Found Unit text) :=
    match Found.before ':' text with
    | some ⟨name, ']' :: rest, shorter⟩ =>
      if setNames.contains (String.ofList name) then
        some ⟨(), rest, Nat.lt_of_succ_lt shorter⟩
      else none
    | _ => none

def Flags.admitsNamed (flags : Flags) (negated : Bool) : Bool :=
  if flags.unicode then !flags.foldCase else !negated

def readDashes (flags : Flags) (set : OpenSet) (text : List Char) :
    Option (OpenSet × Remainder text) :=
  match text with
  | '-' :: rest =>
    if flags.admits true '-' then
      let next := flags.skip rest
      (readDashes flags (set.add 0) next.val).map fun (set, after) =>
        (set, (next.follow after).later)
    else none
  | text => some (set, .all text)
termination_by text.length
decreasing_by exact Nat.lt_succ_of_le (flags.skip rest).property

/-- Reads the sign that negates a set. Without Unicode the rest of all characters is no set. -/
def readNegation (flags : Flags) (text : List Char) : Option (Remainder text) :=
  match text with
  | '^' :: rest => if flags.unicode then some (flags.skip rest).later else none
  | text => some (.all text)

/-- Reads the start of a set after its bracket: whether it is negated, and characters that stand for
themselves only there. -/
def readSetStart (flags : Flags) (text : List Char) : Option (OpenSet × Remainder text) := do
  let negation := flags.skip text
  let dashes ← readNegation flags negation.val
  let (set, rest) ← readDashes flags {} dashes.val
  let (set, last) ← bracket set rest.val
  return (set, negation.follow (dashes.follow (rest.follow last)))
where
  bracket (set : OpenSet) (text : List Char) : Option (OpenSet × Remainder text) :=
    match text with
    | ']' :: rest =>
      if set.parts ≠ 0 then some (set, .all (']' :: rest))
      else if flags.admits true ']' then some (set.add 0, (flags.skip rest).later)
      else none
    | text => some (set, .all text)

def readSetItem (flags : Flags) (text : List Char) : Option (Found (Option Char) text) :=
  match text with
  | [] => none
  | '\\' :: rest =>
    match readEscape flags rest with
    | some ⟨.character c, after, shorter⟩ =>
      if flags.admits true c then some (Found.mk (some c) after shorter).later else none
    | some ⟨.oneOf, after, shorter⟩ => some (Found.mk none after shorter).later
    | _ => none
  | c :: _ => if flags.admits true c then some (.first (some c)) else none

/-- Reads the second half of a range if a minus sign stands after its first character. The ends of a
range are characters in order. -/
def readRange (flags : Flags) (first : Option Char) (text : List Char) : Option (Remainder text) :=
  match text with
  | '-' :: rest =>
    let next := flags.skip rest
    match next.val.head? with
    | none => none
    | some ']' | some '-' => some (.all ('-' :: rest))
    | some _ =>
      match first, readSetItem flags next.val with
      | some low, some ⟨some high, _, shorter⟩ =>
        if low ≤ high then some (next.follow (.ofShorter shorter)).later else none
      | _, _ => none
  | text => some (.all text)

def readSetPart (flags : Flags) (text : List Char) : Option (Found Unit text) :=
  match readSetItem flags text with
  | none => none
  | some ⟨first, rest, shorter⟩ =>
    let next := flags.skip rest
    (readRange flags first next.val).map fun after =>
      (Found.mk () next.val (Nat.lt_of_le_of_lt next.property shorter)).upTo after

/-- Reads the second of the two equal characters of an operator. -/
def readOperator (c : Char) (text : List Char) : Option (Remainder text) :=
  match text with
  | d :: _ => if c = d && ['&', '-', '~'].contains c then some .tail else none
  | [] => none

/-- Where a set stands after one more of its parts: it is closed, or it goes on inside of others. -/
inductive SetStep
  | closed (nesting : Nat)
  | goesOn (outer : List OpenSet) (set : OpenSet)

/-- Takes the next part of a set, whose first character is `c`. -/
def setStep? (flags : Flags) (outer : List OpenSet) (set : OpenSet) (c : Char) (rest : List Char) :
    Option (SetStep × Remainder rest) :=
  let part : Option (SetStep × Remainder rest) :=
    (readSetPart flags (c :: rest)).map fun found => (.goesOn outer (set.add 0), found.tail)
  match c with
  | '[' =>
    match readNamedSet rest with
    | some found =>
      if flags.admitsNamed found.value then some (.goesOn outer (set.add 0), .ofFound found)
      else none
    | none =>
      (readSetStart flags rest).map fun (inner, after) => (.goesOn (set :: outer) inner, after)
  | ']' =>
    match outer with
    | [] => some (.closed (set.total + 1), .all rest)
    | around :: outer => some (.goesOn outer (around.add (set.total + 1)), .all rest)
  | _ =>
    match readOperator c rest with
    | some after => some (.goesOn outer set.operate, after)
    | none => part

/-- Reads a set to its closing bracket, given the sets around it. -/
def readSet (flags : Flags) (outer : List OpenSet) (set : OpenSet) (text : List Char) :
    Option (Found Nat text) :=
  match text with
  | [] => none
  | c :: rest =>
    match setStep? flags outer set c rest with
    | none => none
    | some (.closed nesting, after) => some (.behind nesting after)
    | some (.goesOn outer set, after) =>
      let next := after.follow (flags.skip after.val)
      (readSet flags outer set next.val).map fun found => (next.find found).later
termination_by text.length
decreasing_by exact Nat.lt_succ_of_le (after.follow (flags.skip after.val)).property

end DeployGate.Pattern
