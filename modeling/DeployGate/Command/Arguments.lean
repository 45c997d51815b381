import DeployGate.Command.Invocation

/-!
# Command lines

A command line is options, a command, and what the command takes. Options that concern every
command may stand on either side of it, once on each, and the later side wins.

The value of a setting may be joined to it or follow as the next argument. A value that follows is
only looked at when the next option or the end shows that it is complete. So of two faults in a
command line the one that is found first is not always the one that stands first.
-/

namespace DeployGate.Command

/-- An option without a value. -/
inductive Switch
  | verbose
  | help
  | version
  | bareDiff
  | skipEmptyTasks
  | allowUnrecognized
  deriving DecidableEq, Repr

/-- An option with a value. -/
inductive Setting
  | config
  | format
  deriving DecidableEq, Repr

inductive Flag
  | switch (switch : Switch)
  | setting (setting : Setting)
  deriving DecidableEq, Repr

namespace Flag

def name : Flag → String
  | switch .verbose => "verbose"
  | switch .help => "help"
  | switch .version => "version"
  | switch .bareDiff => "bare-diff"
  | switch .skipEmptyTasks => "skip-empty-tasks"
  | switch .allowUnrecognized => "allow-unrecognized"
  | setting .config => "config"
  | setting .format => "format"

def letter? : Flag → Option Char
  | switch .verbose => some 'v'
  | switch .help => some 'h'
  | switch .version => some 'V'
  | setting .config => some 'c'
  | _ => none

end Flag

/-- The part of a command line that arguments stand in. -/
inductive Scope
  -- Before the command.
  | top
  | check
  | config
  deriving DecidableEq, Repr

namespace Scope

/-- The options that stand before or after every command. -/
def everywhere : List Flag :=
  [.switch .verbose, .setting .config, .setting .format, .switch .help]

def flags : Scope → List Flag
  | top => .switch .version :: everywhere
  | check =>
    .switch .bareDiff :: .switch .skipEmptyTasks :: .switch .allowUnrecognized :: everywhere
  | config => everywhere

def named? (scope : Scope) (name : List Char) : Option Flag :=
  scope.flags.find? (·.name.toList = name)

def lettered? (scope : Scope) (letter : Char) : Option Flag :=
  scope.flags.find? (·.letter? = some letter)

end Scope

/-- The words that name a command; `help` shows help on the one after it. -/
inductive Keyword
  | check
  | config
  | help
  deriving DecidableEq, Repr

def keywords : List (String × Keyword) := [("check", .check), ("config", .config), ("help", .help)]

def formats : List (String × Format) := [("text", .text), ("json", .json)]

structure Given where
  verbose : Bool := false
  config : Option String := none
  format : Option Format := none
  plan : Option String := none
  bareDiff : Bool := false
  skipEmptyTasks : Bool := false
  allowUnrecognized : Bool := false
  deriving DecidableEq, Repr

namespace Given

def turnOn (given : Given) : Switch → Except Stop Given
  | .help => .error .help
  | .version => .error .version
  | .verbose => if given.verbose then .error .repeated else .ok { given with verbose := true }
  | .bareDiff => if given.bareDiff then .error .repeated else .ok { given with bareDiff := true }
  | .skipEmptyTasks =>
    if given.skipEmptyTasks then .error .repeated else .ok { given with skipEmptyTasks := true }
  | .allowUnrecognized =>
    if given.allowUnrecognized then .error .repeated
    else .ok { given with allowUnrecognized := true }

/-- Gives a setting its value. A repetition is found before the value is looked at. -/
def put (given : Given) (setting : Setting) (value : String) : Except Stop Given :=
  match setting with
  | .config =>
    if given.config.isSome then .error .repeated
    else if value = "" then .error .badValue
    else .ok { given with config := some value }
  | .format =>
    if given.format.isSome then .error .repeated
    else
      match formats.lookup value with
      | some format => .ok { given with format := some format }
      | none => .error .badValue

end Given

/-- What the argument before leaves open. -/
inductive Pending
  | nothing
  -- The value of a setting is the next argument.
  | value (setting : Setting)
  -- The value of a setting has come, and has not been looked at.
  | check (setting : Setting) (value : String)
  deriving DecidableEq, Repr

/-- How far a part of a command line has been read. -/
structure Progress where
  given : Given := {}
  pending : Pending := .nothing
  -- After `--` nothing is an option or a command.
  literal : Bool := false
  deriving DecidableEq, Repr

/-- What has been given once nothing is open any more. -/
def Progress.settle (progress : Progress) : Except Stop Given :=
  match progress.pending with
  | .nothing => .ok progress.given
  | .value _ => .error .badValue
  | .check setting value => progress.given.put setting value

inductive Shape
  -- The argument `--`.
  | divider
  -- A name after `--`, and what stands after the first `=` in it.
  | long (name : List Char) (value : Option (List Char))
  -- The letters after `-`.
  | letters (letters : List Char)
  | word
  deriving DecidableEq, Repr

def Shape.ofArgument : List Char → Shape
  | ['-', '-'] => divider
  | '-' :: '-' :: text =>
    match text.dropWhile (· ≠ '=') with
    | [] => long text none
    | _ :: value => long (text.takeWhile (· ≠ '=')) (some value)
  | '-' :: letter :: rest => letters (letter :: rest)
  | _ => word

section

variable (scope : Scope) (progress : Progress)

def takeLong (name : List Char) (value : Option (List Char)) : Except Stop Progress :=
  match scope.named? name, value with
  | none, _ => .error .unknownArgument
  | some (.switch _), some _ => .error .unexpectedValue
  | some (.switch switch), none => do
    let given ← progress.settle
    return { given := ← given.turnOn switch }
  | some (.setting setting), some value => do
    let given ← progress.settle
    return { given := ← given.put setting (String.ofList value) }
  | some (.setting setting), none => do
    let given ← progress.settle
    return { given, pending := .value setting }

/-- Takes letters in turn. What follows the letter of a setting is its value, with or without a
`=` between them. -/
def takeLetters (progress : Progress) : List Char → Except Stop Progress
  | [] => .ok progress
  | letter :: rest =>
    match scope.lettered? letter with
    | none => .error .unknownArgument
    | some (.switch switch) => do
      let given ← progress.settle
      takeLetters { given := ← given.turnOn switch } rest
    | some (.setting setting) => do
      let given ← progress.settle
      match rest with
      | [] => return { given, pending := .value setting }
      | '=' :: value => return { given := ← given.put setting (String.ofList value) }
      | value => return { given := ← given.put setting (String.ofList value) }

/-- Takes a word that is neither an option nor the value of one. Only a check takes such a word, and
only one: the plan. -/
def takeWord (word : String) : Except Stop Progress :=
  match scope, progress.given.plan with
  | .check, none => do
    let given ← progress.settle
    return { given := { given with plan := some word }, literal := progress.literal }
  | .top, _ =>
    .error (if progress.literal && (keywords.lookup word).isSome then .unknownArgument
      else .unknownCommand)
  | _, _ => .error .unknownArgument

def takeArgument (argument : String) : Except Stop Progress :=
  if progress.literal then takeWord scope progress argument
  else
    match Shape.ofArgument argument.toList with
    | .divider => .ok { progress with literal := true }
    | .long name value => takeLong scope progress name value
    | .letters letters => takeLetters scope progress letters
    | .word =>
      match progress.pending with
      | .value setting => .ok { progress with pending := .check setting argument }
      | _ => takeWord scope progress argument

end

def readPart (scope : Scope) (progress : Progress) (arguments : List String) :
    Except Stop Given := do
  let progress ← arguments.foldlM (takeArgument scope) progress
  progress.settle

/-- The command that an argument names where it stands. -/
def Progress.keyword? (progress : Progress) (argument : String) : Option Keyword :=
  match progress.literal, progress.pending with
  | true, _ | _, .value _ => none
  | _, _ => keywords.lookup argument

/-- What `help` shows: help on a command, on which there is no more to say. -/
def helpOn : List String → Stop
  | [] => .help
  | command :: rest =>
    if (keywords.lookup command).isSome && rest.isEmpty then .help else .unknownCommand

def Invocation.ofGiven (action : Action) (before after : Given) : Invocation where
  action := action
  verbose := before.verbose || after.verbose
  config := after.config <|> before.config
  format := (after.format <|> before.format).getD .text

/-- Reads a command line from its options on. What follows the command is read to its end before the
options in front of it are settled. -/
def readFrom (before : Progress) : List String → Except Stop Invocation
  | [] => do
    let given ← before.settle
    throw (if given = {} then .nothingGiven else .missingCommand)
  | argument :: rest =>
    match before.keyword? argument with
    | some .help => .error (helpOn rest)
    | some .config => do
      let after ← readPart .config {} rest
      return .ofGiven .config (← before.settle) after
    | some .check => do
      let after ← readPart .check {} rest
      match after.plan with
      | none => throw .missingPlan
      | some plan =>
        let options : CheckOptions :=
          { plan
            bareDiff := after.bareDiff
            skipEmptyTasks := after.skipEmptyTasks
            allowUnrecognized := after.allowUnrecognized }
        return .ofGiven (.check options) (← before.settle) after
    | none => do
      let before ← takeArgument .top before argument
      readFrom before rest

def Invocation.ofArguments (arguments : List String) : Except Stop Invocation :=
  readFrom {} arguments

end DeployGate.Command
