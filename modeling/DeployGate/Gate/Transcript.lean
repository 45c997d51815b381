import DeployGate.Gate.Event

/-!
# Transcripts

A run of the gate reports events and writes log records, in one order. An observer is a state and
what an entry does to it. Two observers are used: one keeps the events apart from the log, the other
also logs the events where they are reported.
-/

namespace DeployGate.Gate

inductive Entry
  | event (event : Event)
  | log (record : LogRecord)
  deriving DecidableEq, Repr

/-- What an entry does to the state of an observer. -/
abbrev Observer (σ : Type) := σ → Entry → σ

structure Transcript where
  events : List Event := []
  records : List LogRecord := []
  deriving DecidableEq, Repr

namespace Transcript

def record : Observer Transcript
  | transcript, .event event => { transcript with events := transcript.events ++ [event] }
  | transcript, .log record => { transcript with records := transcript.records ++ [record] }

/-- Also logs the events. -/
def recordAndLog : Observer Transcript
  | transcript, .event event =>
    ⟨transcript.events ++ [event], transcript.records ++ [event.toLog]⟩
  | transcript, entry => record transcript entry

def messages (transcript : Transcript) : List String := transcript.events.map Event.message

def count (transcript : Transcript) (severity : Severity) : Nat :=
  transcript.events.countP (·.severity == severity)

def changes (transcript : Transcript) : List Walk.FieldChange :=
  transcript.events.filterMap Event.change?

end Transcript

end DeployGate.Gate
