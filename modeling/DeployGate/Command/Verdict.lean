import DeployGate.Gate.Event
import DeployGate.Json.Write

/-!
# Verdicts

What a check prints: a line for readers, or a summary of the events in JSON.
-/

namespace DeployGate.Command

open Gate (Event)
open Json (Value)

/-- Whether text may be styled for a terminal. -/
inductive Style
  | plain
  | colored
  deriving DecidableEq, Repr

namespace Style

/-- A text between the codes that switch a style on and off. -/
def apply (style : Style) (codes text : String) : String :=
  match style with
  | plain => text
  | colored => "\x1b[" ++ codes ++ "m" ++ text ++ "\x1b[0m"

def bold (style : Style) (text : String) : String := style.apply "1" text

def boldGreen (style : Style) (text : String) : String := style.apply "1;32" text

def boldRed (style : Style) (text : String) : String := style.apply "1;31" text

end Style

/-- The number of events that name a changed field. -/
def changeCount (events : List Event) : Nat := (events.filterMap Event.change?).length

def verdictLine (style : Style) (proceeds : Bool) (events : List Event) : String :=
  if proceeds then
    style.boldGreen "✓" ++ " Deployment may proceed (" ++ style.bold (toString (changeCount events))
      ++ " field changes)\n"
  else style.boldRed "✗" ++ " Deployment halted\n"

def summaryEntry (event : Event) : Value :=
  let level := match event.severity with
    | .info => "info"
    | .error => "error"
  .object [("level", .string level), ("message", .string event.message)]

def summary (proceeds : Bool) (events : List Event) : Value :=
  .object [("events", .array (events.map summaryEntry)), ("proceed", .bool proceeds)]

def summaryText (proceeds : Bool) (events : List Event) : String :=
  String.ofList ((summary proceeds events).indented 0 ++ ['\n'])

end DeployGate.Command
