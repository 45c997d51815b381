import DeployGate.Pattern.Set
import DeployGate.Text.Alphanumeric

/-!
# Usable patterns

Whether a regular expression is well formed and can be matched. It is read once from left to right,
with what is open around the place that is read.
-/

namespace DeployGate.Pattern

def nestingLimit : Nat := 250

/-- A group that is still open, or the whole pattern. -/
structure OpenGroup where
  flags : Flags := {}
  -- The parts of the branch that is read, and how deep the deepest of them is nested.
  parts : Nat := 0
  nesting : Nat := 0
  -- How deep the last part is nested if it can be repeated.
  last : Option Nat := none
  -- How deep the branches before a bar are nested.
  before : Option Nat := none
  deriving DecidableEq, Repr

namespace OpenGroup

def add (group : OpenGroup) (nesting : Nat) : OpenGroup :=
  { group with
    parts := group.parts + 1, nesting := max group.nesting nesting, last := some nesting }

def setFlags (group : OpenGroup) (flags : Flags) : OpenGroup :=
  { group with flags, parts := group.parts + 1, last := none }

def repeat? (group : OpenGroup) : Option OpenGroup :=
  group.last.map fun last =>
    { group with nesting := max group.nesting (last + 1), last := some (last + 1) }

def branch (group : OpenGroup) : Nat :=
  if group.parts ≤ 1 then group.nesting else group.nesting + 1

/-- How deep the group is nested if it ends here. -/
def total (group : OpenGroup) : Nat :=
  match group.before with
  | none => group.branch
  | some before => max before group.branch + 1

def alternate (group : OpenGroup) : OpenGroup :=
  { flags := group.flags, before := some (max (group.before.getD 0) group.branch) }

end OpenGroup

inductive Opening
  | flags (flags : Flags)
  | group (flags : Flags) (name : Option (List Char))

def isName : List Char → Bool
  | [] => false
  | c :: rest =>
    (c = '_' || Text.isAlphabetic c)
      && rest.all fun c => ['_', '.', '[', ']'].contains c || Text.isAlphanumeric c

def readName (text : List Char) : Option (Found (List Char) text) :=
  match Found.before '>' text with
  | some found => if isName found.value then some found else none
  | none => none

def readOpening (flags : Flags) (text : List Char) : Option (Opening × Remainder text) :=
  let start := flags.skip text
  (opening start.val).map fun (opening, rest) => (opening, start.follow rest)
where
  named (text : List Char) : Option (Opening × Remainder text) :=
    (readName text).map fun found => (.group flags (some found.value), .ofFound found)
  opening (text : List Char) : Option (Opening × Remainder text) :=
    match text with
    | '?' :: 'P' :: '<' :: rest =>
      (named rest).map fun (opening, after) => (opening, after.later.later.later)
    | '?' :: '<' :: rest => (named rest).map fun (opening, after) => (opening, after.later.later)
    | '?' :: rest =>
      (flags.read [] rest).map fun found =>
        let (flags, opens) := found.value
        (if opens then .group flags none else .flags flags, (Remainder.ofFound found).later)
    | text => some (.group flags none, .all text)

/-- What is known at a place in a pattern: the group that is read, those around it, and the names
that are taken. -/
structure State where
  outer : List OpenGroup := []
  group : OpenGroup := {}
  names : List (List Char) := []

namespace State

def add (state : State) (nesting : Nat) : State :=
  { state with group := state.group.add nesting }

def opened? (state : State) (flags : Flags) (name : Option (List Char)) : Option State :=
  if name.any state.names.contains then none
  else some ⟨state.group :: state.outer, { flags }, name.toList ++ state.names⟩

def closed? (state : State) : Option State :=
  match state.outer with
  | [] => none
  | around :: outer => some { state with outer, group := around.add (state.group.total + 1) }

/-- Takes the next part of a pattern, whose first character is `c`. -/
def step? (state : State) (c : Char) (rest : List Char) : Option (State × Remainder rest) :=
  let flags := state.group.flags
  match c with
  | '(' => do
    let (opening, after) ← readOpening flags rest
    match opening with
    | .flags flags => some ({ state with group := state.group.setFlags flags }, after)
    | .group flags name => (state.opened? flags name).map (·, after)
  | ')' => state.closed?.map (·, .all rest)
  | '|' => some ({ state with group := state.group.alternate }, .all rest)
  | '[' => do
    let start ← readSetStart flags rest
    let found ← readSet flags [] start.1 start.2.val
    return (state.add found.value, start.2.follow (.ofFound found))
  | '\\' => do
    let found ← readEscape flags rest
    match found.value with
    | .character c => if flags.admits false c then some (state.add 0, .ofFound found) else none
    | _ => some (state.add 0, .ofFound found)
  | '?' | '*' | '+' =>
    let lazily : Remainder rest := match rest with
      | '?' :: _ => .tail
      | rest => .all rest
    state.group.repeat?.map fun group => ({ state with group }, lazily)
  | '\x7b' => none
  | '^' | '$' => some (state.add 0, .all rest)
  | '.' => if flags.unicode then some (state.add 0, .all rest) else none
  | c => if flags.admits false c then some (state.add 0, .all rest) else none

def ends (state : State) : Bool := state.outer.isEmpty && state.group.total ≤ nestingLimit

def goesOn (state : State) (text : List Char) : Bool :=
  match text with
  | [] => state.ends
  | c :: rest =>
    match state.step? c rest with
    | none => false
    | some (state, after) =>
      let next := after.follow (state.group.flags.skip after.val)
      state.goesOn next.val
termination_by text.length
decreasing_by exact Nat.lt_succ_of_le (after.follow (state.group.flags.skip after.val)).property

end State

/-- Whether a text is a pattern that can be used. -/
def isUsable (text : List Char) : Bool := State.goesOn {} text

end DeployGate.Pattern
