import DeployGate.Proofs.Command.Summary

/-!
# Messages

A message says which event it is about. Its words stand at fixed places between the names and values
of an event, and no name or value is taken for one of them: each is cut off at the first character
that cannot be in it.

## Main result

`message_identifies`: events with the same message are of one kind, and they are the same event if
it is a field change whose names and old value can be cut off. So a summary, which has nothing but
messages, loses nothing of such events.
-/

namespace DeployGate.Walk

/-! ### Cutting at a character -/

/-- What stands in front of the first occurrence of a character is determined, and what follows. -/
theorem cut_inj {stop : Char} {first first' rest rest' : List Char} (free : stop ∉ first)
    (free' : stop ∉ first') (same : first ++ stop :: rest = first' ++ stop :: rest') :
    first = first' ∧ rest = rest' := by
  induction first generalizing first' with
  | nil =>
    cases first' with
    | nil => simpa using same
    | cons c first' =>
      -- the other text would begin with the character
      obtain ⟨rfl, -⟩ := List.cons.inj same
      simp at free'
  | cons c first ih =>
    cases first' with
    | nil =>
      obtain ⟨rfl, -⟩ := List.cons.inj same
      simp at free
    | cons d first' =>
      obtain ⟨rfl, behind⟩ := List.cons.inj same
      simp only [List.mem_cons, not_or] at free free'
      obtain ⟨rfl, rfl⟩ := ih free.2 free'.2 behind
      exact ⟨rfl, rfl⟩

/-- A name behind its label, up to a space, if there is a name. -/
def labelled (label : List Char) (name : String) : List Char :=
  if name.isEmpty then [] else label ++ (name.toList ++ [' '])

theorem toList_segment (label name : String) :
    (if name.isEmpty then "" else label ++ name ++ " ").toList = labelled label.toList name := by
  unfold labelled
  split
  · rfl
  · simp

/-- Whether a name is there can be seen from the first character. -/
theorem labelled_inj {opening : Char} {label rest rest' : List Char} {name name' : String}
    (free : ' ' ∉ name.toList) (free' : ' ' ∉ name'.toList) (other : opening ∉ rest.head?)
    (other' : opening ∉ rest'.head?)
    (same : labelled (opening :: label) name ++ rest = labelled (opening :: label) name' ++ rest') :
    name = name' ∧ rest = rest' := by
  simp only [labelled] at same
  split at same <;> split at same
  · next empty empty' =>
    rw [String.isEmpty_iff] at empty empty'
    exact ⟨empty.trans empty'.symm, same⟩
  · rw [List.nil_append] at same
    simp [same] at other
  · rw [List.nil_append] at same
    simp [← same] at other'
  · simp only [List.append_assoc, List.append_cancel_left_eq, List.singleton_append] at same
    obtain ⟨names, rests⟩ := cut_inj free free' same
    exact ⟨String.toList_inj.mp names, rests⟩

namespace FieldChange

/-- The names and values of the change can be cut off where a message has them. -/
structure Plain (change : FieldChange) : Prop where
  group : ' ' ∉ change.group.toList
  task : ' ' ∉ change.task.toList
  object : ':' ∉ change.object.toList
  field : ' ' ∉ change.field.toList
  old : ' ' ∉ change.old.toList

/-- The words in front of the name of the object. -/
def opening : List Char := "plan indicates change of ".toList

/-- What a message says about the change itself. -/
def account (change : FieldChange) : List Char :=
  opening ++ (change.object.toList ++ ':' :: (change.field.toList ++ ' ' ::
    ("from ".toList ++ (change.old.toList ++ ' ' :: ("to ".toList ++ change.new.toList)))))

theorem head_account (change : FieldChange) : change.account.head? = some 'p' := by
  have first : opening.head? = some 'p' := rfl
  simp [account, List.head?_append, first]

/-- A message has three parts, of which the first two may be missing. -/
theorem toList_message (change : FieldChange) :
    change.message.toList
      = labelled "group ".toList change.group
          ++ (labelled "and task ".toList change.task ++ change.account) := by
  have colon : ":".toList = [':'] := rfl
  have old : " from ".toList = ' ' :: "from ".toList := rfl
  have new : " to ".toList = ' ' :: "to ".toList := rfl
  unfold message account opening
  simp only [String.toList_append, toList_segment, colon, old, new, List.append_assoc,
    List.cons_append, List.nil_append]

/-- A message begins with its group, its task or the first of the words. -/
theorem message_begins (change : FieldChange) :
    ∃ c rest, change.message.toList = c :: rest ∧ c ≠ 'j' ∧ c ≠ 'n' := by
  rw [toList_message]
  unfold labelled
  split
  · split
    · obtain ⟨rest, first⟩ := List.head?_eq_some_iff.mp change.head_account
      exact ⟨'p', rest, first, by decide⟩
    · exact ⟨'a', _, rfl, by decide⟩
  · exact ⟨'g', _, rfl, by decide⟩

theorem account_inj {change change' : FieldChange} (plain : change.Plain) (plain' : change'.Plain)
    (same : change.account = change'.account) :
    change.object = change'.object ∧ change.field = change'.field ∧ change.old = change'.old ∧
      change.new = change'.new := by
  unfold account at same
  rw [List.append_cancel_left_eq] at same
  obtain ⟨object, same⟩ := cut_inj plain.object plain'.object same
  obtain ⟨field, same⟩ := cut_inj plain.field plain'.field same
  rw [List.append_cancel_left_eq] at same
  obtain ⟨old, same⟩ := cut_inj plain.old plain'.old same
  rw [List.append_cancel_left_eq] at same
  simp only [String.toList_inj] at object field old same
  exact ⟨object, field, old, same⟩

/-- Plain changes with the same message are the same. -/
theorem eq_of_message_eq {change change' : FieldChange} (plain : change.Plain)
    (plain' : change'.Plain) (same : change.message = change'.message) : change = change' := by
  rw [← String.toList_inj, toList_message, toList_message] at same
  -- none of the three parts begins like another one
  have account (change : FieldChange) : 'a' ∉ change.account.head? := by simp [head_account]
  have behind (change : FieldChange) :
      'g' ∉ (labelled "and task ".toList change.task ++ change.account).head? := by
    unfold labelled
    split
    · simp [head_account]
    · simp
  obtain ⟨group, same⟩ :=
    labelled_inj plain.group plain'.group (behind change) (behind change') same
  obtain ⟨task, same⟩ :=
    labelled_inj plain.task plain'.task (account change) (account change') same
  obtain ⟨object, field, old, new⟩ := account_inj plain plain' same
  cases change
  cases change'
  simp_all

end FieldChange

end DeployGate.Walk

namespace DeployGate.Gate

open Walk (FieldChange)

inductive EventKind
  | newJob
  | noChanges
  | fieldChanged
  | unrecognized
  deriving DecidableEq, Repr

def Event.kind : Event → EventKind
  | newJob => .newJob
  | noChanges => .noChanges
  | fieldChanged _ => .fieldChanged
  | unrecognized _ => .unrecognized

/-- The kind of an event, read off the first five characters of its message. -/
def EventKind.ofMessage (message : List Char) : EventKind :=
  if message.take 5 = ['j', 'o', 'b', ' ', 'i'] then .newJob
  else if message.take 5 = ['j', 'o', 'b', ' ', 'd'] then .unrecognized
  else if message.take 5 = ['n', 'o', ' ', 'c', 'h'] then .noChanges
  else .fieldChanged

theorem Event.message_unrecognized (raw : String) :
    (unrecognized raw).message = "job diff has unrecognized type '" ++ raw ++ "'" := rfl

theorem Event.ofMessage_message (event : Event) :
    EventKind.ofMessage event.message.toList = event.kind := by
  cases event with
  | newJob =>
    change EventKind.ofMessage "job is a new addition to the cluster".toList = .newJob
    simp [EventKind.ofMessage]
  | noChanges =>
    change EventKind.ofMessage "no changes detected for job".toList = .noChanges
    simp [EventKind.ofMessage]
  | unrecognized raw =>
    rw [message_unrecognized]
    simp [EventKind.ofMessage, kind]
  | fieldChanged change =>
    obtain ⟨c, rest, begins, noJob, noNo⟩ := change.message_begins
    change EventKind.ofMessage change.message.toList = .fieldChanged
    simp [EventKind.ofMessage, begins, noJob, noNo]

/-- Messages of different kinds differ within their first five characters. -/
theorem Event.kind_eq_of_message_eq {event event' : Event}
    (same : event.message = event'.message) : event.kind = event'.kind := by
  rw [← ofMessage_message, same, ofMessage_message]

theorem Event.raw_eq_of_message_eq {raw raw' : String}
    (same : (unrecognized raw).message = (unrecognized raw').message) : raw = raw' := by
  simp only [message_unrecognized, ← String.toList_inj, String.toList_append,
    List.append_cancel_left_eq, List.append_cancel_right_eq] at same
  exact String.toList_inj.mp same

/-- Only what changes fields has to be plain. -/
def Event.Plain : Event → Prop
  | fieldChanged change => change.Plain
  | _ => True

theorem Event.eq_of_message_eq {event event' : Event} (plain : event.Plain)
    (plain' : event'.Plain) (same : event.message = event'.message) : event = event' := by
  have kind := kind_eq_of_message_eq same
  cases event <;> cases event' <;> try cases kind
  · rfl
  · rfl
  · rw [FieldChange.eq_of_message_eq plain plain' same]
  · rw [raw_eq_of_message_eq same]

end DeployGate.Gate

namespace DeployGate.Command

open Gate (Event)
open Walk (FieldChange)

/-- Two events with the same message are of one kind; unrecognized types have the same text, and
field changes are the same if their groups, tasks, fields and old values have no space in them and
their objects no colon. Therefore a summary of such events tells which they are. -/
theorem message_identifies :
    (∀ event event' : Event, event.message = event'.message →
      event.kind = event'.kind ∧
      (∀ raw raw', event = .unrecognized raw → event' = .unrecognized raw' → raw = raw') ∧
      ∀ change change', event = .fieldChanged change → event' = .fieldChanged change' →
        change.Plain → change'.Plain → change = change') ∧
    ∀ proceeds proceeds' (events events' : List Event), (∀ event ∈ events, event.Plain) →
      (∀ event ∈ events', event.Plain) →
      summaryText proceeds events = summaryText proceeds' events' →
        proceeds = proceeds' ∧ events = events' := by
  refine ⟨fun event event' same => ⟨Event.kind_eq_of_message_eq same, ?_, ?_⟩, ?_⟩
  · rintro raw raw' rfl rfl
    exact Event.raw_eq_of_message_eq same
  · rintro change change' rfl rfl plain plain'
    exact FieldChange.eq_of_message_eq plain plain' same
  · intro proceeds proceeds' events events' plain plain' same
    obtain ⟨answers, messages⟩ := summaryText_eq_iff.mp same
    refine ⟨answers, ?_⟩
    -- the summaries are equal event by event
    clear same
    induction messages with
    | nil => rfl
    | cons first _ ih =>
      rw [List.forall_mem_cons] at plain plain'
      rw [Event.eq_of_message_eq plain.1 plain'.1 first.2, ih plain.2 plain'.2]

/-- A change under a task without a group, with spaces in its object and its new value, and without
an old value. -/
theorem message_identifies_spaced :
    let change : FieldChange := ⟨"", "redis", "disk from host", "Size", "", "a to b"⟩
    let change' : FieldChange := { change with task := "red" ++ "is" }
    let events : List Event := [.newJob, .fieldChanged change]
    let events' : List Event := [.newJob, .fieldChanged change']
    change.Plain ∧ change'.Plain ∧ Event.message (.fieldChanged change) = change'.message ∧
      change = change' ∧ (∀ event ∈ events, event.Plain) ∧ (∀ event ∈ events', event.Plain) ∧
      summaryText true events = summaryText true events' ∧ events = events' := by
  intro change change' events events'
  have plain : change.Plain := by constructor <;> decide
  have plain' : change'.Plain := by constructor <;> decide
  have each : ∀ event ∈ events, event.Plain := by simp [events, Event.Plain, plain]
  have each' : ∀ event ∈ events', event.Plain := by simp [events', Event.Plain, plain']
  have same : Event.message (.fieldChanged change) = Event.message (.fieldChanged change') := rfl
  obtain ⟨-, -, changes⟩ := message_identifies.1 _ _ same
  have summaries : summaryText true events = summaryText true events' := rfl
  obtain ⟨-, recovered⟩ := message_identifies.2 true true events events' each each' summaries
  exact ⟨plain, plain', same, changes change change' rfl rfl plain plain', each, each', summaries,
    recovered⟩

/-- A space in the old value is too much. -/
example :
    (⟨"web", "", "Restart", "Delay", "1 to", "2"⟩ : FieldChange).message
      = (⟨"web", "", "Restart", "Delay", "1", "to 2"⟩ : FieldChange).message :=
  rfl

end DeployGate.Command
