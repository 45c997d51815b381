import DeployGate.Gate.Log
import DeployGate.Pattern.Usable

/-!
# Conditions on log records

What a directive of a log filter can ask of a record besides its target. Only the presence of a
value can be met: what a value must be is checked for its form, but it is asked of spans alone, and
no record here stands inside a span.
-/

namespace DeployGate.Command

open Gate (LogRecord)

/-- What a directive asks of a record besides its target. -/
inductive Condition
  | always
  -- The record has a value of this name.
  | hasValue (name : String)
  -- The record stands inside a span, or has a certain value. No record here does.
  | never
  deriving DecidableEq, Repr

def dropSign : List Char → List Char
  | '+' :: rest => rest
  | '-' :: rest => rest
  | text => text

/-- Whether a text is a decimal with an optional point and exponent, infinity or not a number. -/
def isDecimal (text : List Char) : Bool :=
  let unsigned := dropSign text
  let whole := unsigned.takeWhile Char.isDigit
  let (fraction, rest) := match unsigned.dropWhile Char.isDigit with
    | '.' :: rest => (rest.takeWhile Char.isDigit, rest.dropWhile Char.isDigit)
    | rest => ([], rest)
  let isExponent := match rest with
    | [] => true
    | c :: power =>
      let digits := dropSign power
      (c = 'e' || c = 'E') && !digits.isEmpty && digits.all Char.isDigit
  !(whole.isEmpty && fraction.isEmpty) && isExponent
    || ["inf", "infinity", "nan"].contains (String.ofList (unsigned.map Char.toLower))

namespace Condition

/-- Reads what stands in the braces of a condition: the name of a value, and possibly what it must
be. That may be any number or else a pattern. -/
def ofValue? (text : List Char) : Option Condition :=
  let name := text.takeWhile (· ≠ '=')
  match text.dropWhile (· ≠ '=') with
  | [] => if name.isEmpty then none else some (hasValue (String.ofList name))
  | _ :: rest =>
    let value := rest.takeWhile (· ≠ '=')
    if isDecimal value || Pattern.isUsable value then some never else none

def holds (condition : Condition) (record : LogRecord) : Bool :=
  match condition with
  | always => true
  | hasValue name => name = "message" || record.values.any (·.1 = name)
  | never => false

/-- Whether a condition decides against another that holds of the same record. -/
def precedes : Condition → Condition → Bool
  | hasValue a, hasValue b => b < a
  | hasValue _, _ => true
  | _, _ => false

end Condition

end DeployGate.Command
