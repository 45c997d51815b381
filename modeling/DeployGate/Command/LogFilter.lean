import DeployGate.Command.Condition
import DeployGate.Text.Alphanumeric
import DeployGate.Text.Blank

/-!
# Log filters

A filter is a list of directives, each of which sets a threshold for the parts of the program whose
names start with its target. The directive with the longest target decides about a record, and a
record about which none decides is not shown.
-/

namespace DeployGate.Command

open Gate (Level LogRecord)

/-- How much is shown: the records of a level and of those above it. -/
inductive Threshold
  | off
  | error
  | warn
  | info
  | debug
  | trace
  deriving DecidableEq, Repr

namespace Threshold

def rank : Threshold → Nat
  | off => 0
  | error => 1
  | warn => 2
  | info => 3
  | debug => 4
  | trace => 5

/-- The threshold that shows a level and no level below it. -/
def ofLevel : Level → Threshold
  | .error => error
  | .warn => warn
  | .info => info
  | .debug => debug

def admits (threshold : Threshold) (level : Level) : Bool := (ofLevel level).rank ≤ threshold.rank

def names : List (String × Threshold) :=
  [("off", off), ("error", error), ("warn", warn), ("info", info), ("debug", debug),
    ("trace", trace)]

/-- The threshold with a rank, which may be written with a plus sign and leading zeros. -/
def ranked? (text : List Char) : Option Threshold :=
  let digits := if text.head? = some '+' then text.tail else text
  if digits.isEmpty || !digits.all Char.isDigit then none
  else
    let rank := digits.foldl (fun value digit => 10 * value + (digit.toNat - 48)) 0
    [off, error, warn, info, debug, trace][rank]?

/-- The threshold that a rank or a name stands for, the name in either case of letters. -/
def named? (text : List Char) : Option Threshold :=
  (ranked? text).or (names.lookup (String.ofList (text.map Char.toLower)))

end Threshold

structure Directive where
  target : String := ""
  condition : Condition := .always
  threshold : Threshold
  deriving DecidableEq, Repr

namespace Directive

/-- A target starts with a letter, a digit or one of three signs. -/
def startsTarget (c : Char) : Bool := c = '-' || c = ':' || c = '_' || Text.isAlphanumeric c

/-- A text in which the parts of a directive are found without the blank characters around it, and
cut out at the same places with them: both forms of what is still to be read. -/
structure Cursor where
  trimmed : List Char
  whole : List Char

namespace Cursor

def drop (cursor : Cursor) (count : Nat) : Cursor :=
  ⟨cursor.trimmed.drop count, cursor.whole.drop count⟩

/-- What stands before the first of some characters, that character, and what follows it. -/
def cut (cursor : Cursor) (stops : List Char) : List Char × Option Char × Cursor :=
  let size := (cursor.trimmed.takeWhile (!stops.contains ·)).length
  let rest := cursor.drop size
  (cursor.whole.take size, rest.trimmed.head?, rest.drop 1)

/-- Reads a condition after its opening bracket. A span may be named, and then a value in braces. -/
def condition? (cursor : Cursor) : Option (Condition × Cursor) :=
  match cursor.cut [']', '\x7b'] with
  | (_, some ']', rest) => some (.never, rest)
  | (span, some '\x7b', rest) =>
    match rest.cut ['\x7d'] with
    | (value, some '\x7d', after) => do
      let condition ← Condition.ofValue? value
      if after.trimmed.head? = some ']' then
        some (if span.isEmpty then condition else .never, after.drop 1)
      else none
    | _ => none
  | _ => none

/-- The threshold after an equals sign. Without one everything is shown. -/
def threshold? (cursor : Cursor) : Option Threshold :=
  if cursor.whole.isEmpty then some .trace else Threshold.named? cursor.whole

end Cursor

/-- Reads a directive. A target alone that is the name of a threshold is one for all targets. -/
def ofText? (text : List Char) : Option Directive := do
  let start : Cursor := ⟨Text.trim text, text⟩
  let first ← start.trimmed.head?
  if first ≠ '[' && !startsTarget first then none
  else
    match start.cut ['=', '['] with
    | (target, some '=', rest) =>
      rest.threshold?.map fun threshold => ⟨String.ofList target, .always, threshold⟩
    | (target, some _, rest) =>
      let (condition, after) ← rest.condition?
      let threshold ← match after.trimmed with
        | [] => some .trace
        | '=' :: _ => (after.drop 1).threshold?
        | _ => none
      return ⟨String.ofList target, condition, threshold⟩
    | (_, none, _) =>
      match Threshold.named? text with
      | some threshold => some { threshold }
      | none => some ⟨String.ofList text, .always, .trace⟩

def concerns (directive : Directive) (record : LogRecord) : Bool :=
  directive.target.toList.isPrefixOf record.speaker.name.toList
    && directive.condition.holds record

/-- Whether a directive decides against another that concerns the same record. -/
def precedes (a b : Directive) : Bool :=
  let (m, n) := (a.target.utf8ByteSize, b.target.utf8ByteSize)
  n < m || m = n && a.condition.precedes b.condition

end Directive

/-- The directives in the order in which they are written. -/
abbrev LogFilter := List Directive

namespace LogFilter

def ofText? (text : String) : Option LogFilter :=
  ((text.splitOn ",").filter (· ≠ "")).mapM fun part => Directive.ofText? part.toList

/-- The directive that decides about a record: of equals the last. -/
def deciding? (filter : LogFilter) (record : LogRecord) : Option Directive :=
  (filter.filter (·.concerns record)).foldl
    (fun best directive => match best with
      | none => some directive
      | some best => some (if best.precedes directive then best else directive))
    none

def admits (filter : LogFilter) (record : LogRecord) : Bool :=
  match filter.deciding? record with
  | none => false
  | some directive => directive.threshold.admits record.level

/-- The filter of a run. One that is given wins over what the run would show by itself. -/
def ofSettings (given : Option String) (verbose : Bool) : LogFilter :=
  (given.bind ofText?).getD [{ threshold := if verbose then .debug else .info }]

end LogFilter

end DeployGate.Command
